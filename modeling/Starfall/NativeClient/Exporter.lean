import Mathlib.Algebra.GroupWithZero.Nat
import Starfall.NativeClient.Parse

/-! The exporter for Blender (`Exporter/__init__.py`), and what the client reads of its documents.
Writing and parsing JSON are taken to be faithful, so that a document is what `json.dumps` is
called with. -/

namespace Starfall.Exporter

open Models

structure Vertex (D : Type) where
  co : Vec3 D
  normal : Vec3 D

/-- A face of a mesh with `n` vertices.  Its material is an index of Blender, which is a `short`. -/
structure Tessface (n : Nat) where
  vertices : List (Fin n)
  material_index : Nat
  length_vertices : vertices.length = 3 ∨ vertices.length = 4
  material_index_lt : material_index < 2 ^ 15

structure MeshData (D : Type) where
  vertices : List (Vertex D)
  materials : List (Material D)
  tessfaces : List (Tessface vertices.length)

/-- A selected object. -/
inductive Object (D : Type)
  | mesh (name : Str) (data : MeshData D)
  | other (type : Str)

/-- What Python does with numbers: `round(y, 5)`, and `str` of a `float`, which is a `double`. -/
structure Python (D : Type) where
  round : D → D
  str : D → Str

variable {D R : Type} (python : Python D)

/-- `str` of an `int`. -/
def strInt (n : Nat) : Str := Nat.toDigits 10 n

/-- `[str(round(y,5)) for y in v]`. -/
def coordinates (v : Vec3 D) : Var :=
  .array ([v.x, v.y, v.z].map fun y => .string (python.str (python.round y)))

/-- The members of the face in the dictionary of `formatFace`. -/
def faceMembers (mesh : MeshData D) (face : Tessface mesh.vertices.length)
    (a b c : Fin face.vertices.length) : List (Str × Var) :=
  [("vertices".toList, .array ([a, b, c].map fun x =>
      coordinates python mesh.vertices[face.vertices[x]].co)),
    ("material_index".toList, .string (strInt face.material_index)),
    ("normals".toList, .array ([a, b, c].map fun x =>
      coordinates python mesh.vertices[face.vertices[x]].normal))]

def formatFace (mesh : MeshData D) (face : Tessface mesh.vertices.length)
    (a b c : Fin face.vertices.length) : Var :=
  .struct [("face".toList, .struct (faceMembers python mesh face a b c))]

/-- What `execute` appends to the list of faces for a face of three or four vertices. -/
def formatFaces (mesh : MeshData D) (face : Tessface mesh.vertices.length) : List Var :=
  if h : face.vertices.length = 3 then
    [formatFace python mesh face ⟨0, by omega⟩ ⟨1, by omega⟩ ⟨2, by omega⟩]
  else
    have h4 := face.length_vertices.resolve_left h
    [formatFace python mesh face ⟨0, by omega⟩ ⟨1, by omega⟩ ⟨2, by omega⟩,
      formatFace python mesh face ⟨0, by omega⟩ ⟨2, by omega⟩ ⟨3, by omega⟩]

def materialMembers (material : Material D) : List (Str × Var) :=
  [("name".toList, .string material.name),
    ("alpha".toList, .string (python.str material.alpha)),
    ("diffuse_color".toList, coordinates python material.diffuseColor),
    ("specular_color".toList, coordinates python material.specularColor)]

def formatMaterial (material : Material D) : List Var :=
  [.struct [("material".toList, .struct (materialMembers python material))]]

def meshMembers (name : Str) (mesh : MeshData D) : List (Str × Var) :=
  [("name".toList, .string name),
    ("faces".toList, .array (mesh.tessfaces.flatMap (formatFaces python mesh))),
    ("materials".toList, .array (mesh.materials.flatMap (formatMaterial python)))]

/-- What `execute` appends to the list of objects. -/
def formatObject : Object D → List Var
  | .mesh name mesh => [.struct [("mesh".toList, .struct (meshMembers python name mesh))]]
  | .other _ => []

def document (obs : List (Object D)) : Var :=
  .struct [("meshes".toList, .array (obs.flatMap (formatObject python)))]

/-- The document that `execute` writes.  It raises a `NameError` when nothing is selected. -/
def execute (obs : List (Object D)) : Option Var :=
  if obs = [] then none else some (document python obs)

variable (float : D → R)

/-- A vector as the client has it, rounded and cast. -/
def rounded (v : Vec3 D) : Vec3 R :=
  ⟨float (python.round v.x), float (python.round v.y), float (python.round v.z)⟩

/-- A triangle of vertices of a mesh, rounded. -/
def triangle (mesh : MeshData D) (material_index : Nat) (i j k : Fin mesh.vertices.length) :
    Face R where
  vertices := [i, j, k].map fun x => rounded python float mesh.vertices[x].co
  normals := [i, j, k].map fun x => rounded python float mesh.vertices[x].normal
  materialIndex := .ofNat material_index

/-- A triangle as itself, and a quad as two triangles. -/
def triangulation (mesh : MeshData D) (face : Tessface mesh.vertices.length) : List (Face R) :=
  match face.vertices with
  | [a, b, c] => [triangle python float mesh face.material_index a b c]
  | [a, b, c, d] =>
    [triangle python float mesh face.material_index a b c,
      triangle python float mesh face.material_index a c d]
  | _ => []

/-- A material with its colours rounded. -/
def roundedMaterial (material : Material D) : Material R where
  name := material.name
  alpha := float material.alpha
  specularColor := rounded python float material.specularColor
  diffuseColor := rounded python float material.diffuseColor

/-- The meshes of an object. -/
def triangulated [LinearOrder R] (uninitialized : BoundingBox R) : Object D → List (Mesh R)
  | .mesh name mesh =>
    let faces := mesh.tessfaces.flatMap (triangulation python float mesh)
    [{ name, materials := mesh.materials.map (roundedMaterial python float), faces,
       boundingBox := calculateBoundingBox uninitialized faces }]
  | .other _ => []

/-- Printing a number and parsing it are inverse, for a `float` and for an `int` from 0 on. -/
structure Inverse (parser : NumberParser D R) : Prop where
  float : ∀ y, parser.tryParseFloat (python.str y) = y
  int : ∀ n < 2 ^ 31, parser.tryParse (strInt n) = .ofNat n

variable {python} {parser : NumberParser D R}

theorem parseElements_coordinates (h : Inverse python parser) (v : Vec3 D) :
    parseElements parser (.string (python.str (python.round v.x)))
      (.string (python.str (python.round v.y))) (.string (python.str (python.round v.z))) =
        .ok (rounded python parser.float v) := by
  show Except.ok _ = _
  rw [h.float, h.float, h.float]
  rfl

theorem parseVectors_coordinates (h : Inverse python parser) (vs : List (Vec3 D)) :
    parseVectors parser (vs.map (coordinates python)) =
      .ok (vs.map (rounded python parser.float)) := by
  induction vs with
  | nil => rfl
  | cons v vs ih =>
    rw [List.map_cons, coordinates]
    show (do
      let v ← parseElements parser _ _ _
      let vs ← parseVectors parser (vs.map (coordinates python))
      pure (v :: vs)) = _
    rw [parseElements_coordinates h, ih]
    rfl

theorem parseMaterial_members (h : Inverse python parser) (material : Material D) :
    parseMaterial parser (materialMembers python material) =
      .ok (roundedMaterial python parser.float material) := by
  have halpha : parseFloat parser "alpha" (materialMembers python material) =
      .ok (parser.float material.alpha) := by
    show Except.ok _ = _
    rw [h.float]
  have hname : parseString "name" (materialMembers python material) = .ok material.name := rfl
  have hdiffuse : parseVec3 parser "diffuse_color" (materialMembers python material) =
      .ok (rounded python parser.float material.diffuseColor) :=
    parseElements_coordinates h material.diffuseColor
  have hspecular : parseVec3 parser "specular_color" (materialMembers python material) =
      .ok (rounded python parser.float material.specularColor) :=
    parseElements_coordinates h material.specularColor
  rw [parseMaterial, halpha, hname, hdiffuse, hspecular]
  rfl

theorem parseFace_members (h : Inverse python parser) (mesh : MeshData D)
    (face : Tessface mesh.vertices.length) (a b c : Fin face.vertices.length) :
    parseFace parser (faceMembers python mesh face a b c) =
      .ok (triangle python parser.float mesh face.material_index face.vertices[a] face.vertices[b]
        face.vertices[c]) := by
  have hvertices : parseVec3s parser "vertices" (faceMembers python mesh face a b c) =
      .ok ([a, b, c].map fun x => rounded python parser.float mesh.vertices[face.vertices[x]].co) :=
    parseVectors_coordinates h
      ([a, b, c].map fun (x : Fin face.vertices.length) => mesh.vertices[face.vertices[x]].co)
  have hnormals : parseVec3s parser "normals" (faceMembers python mesh face a b c) =
      .ok ([a, b, c].map fun x =>
        rounded python parser.float mesh.vertices[face.vertices[x]].normal) :=
    parseVectors_coordinates h
      ([a, b, c].map fun (x : Fin face.vertices.length) => mesh.vertices[face.vertices[x]].normal)
  have hindex : parseUInt32 parser "material_index" (faceMembers python mesh face a b c) =
      .ok (.ofNat face.material_index) := by
    show Except.ok (parser.tryParse (strInt face.material_index)).toUInt32 = _
    have hlt := face.material_index_lt
    rw [h.int _ (by omega)]
    rfl
  rw [parseFace, hvertices, hnormals, hindex]
  rfl

theorem parseFaces_format (h : Inverse python parser) (mesh : MeshData D)
    (face : Tessface mesh.vertices.length) :
    parseEach "face" (parseFace parser) (formatFaces python mesh face) =
      .ok (triangulation python parser.float mesh face) := by
  have hsingle (a b c : Fin face.vertices.length) :
      parseEach "face" (parseFace parser) [formatFace python mesh face a b c] = _ :=
    parseEach_single (parseFace_members h mesh face a b c)
  obtain ⟨vertices, index, hlength, hlt⟩ := face
  rcases hlength with hthree | hfour
  · obtain ⟨a, b, c, rfl⟩ := List.length_eq_three.mp hthree
    exact hsingle ⟨0, by simp⟩ ⟨1, by simp⟩ ⟨2, by simp⟩
  · obtain ⟨a, rest, rfl⟩ := List.exists_cons_of_length_eq_add_one hfour
    obtain ⟨b, c, d, rfl⟩ := List.length_eq_three.mp (Nat.succ.inj hfour)
    exact parseEach_append (hsingle ⟨0, by simp⟩ ⟨1, by simp⟩ ⟨2, by simp⟩)
      (hsingle ⟨0, by simp⟩ ⟨2, by simp⟩ ⟨3, by simp⟩)

variable [LinearOrder R] {uninitialized : BoundingBox R}

theorem parseMesh_members (h : Inverse python parser) (name : Str) (mesh : MeshData D) :
    parseEach "mesh" (parseMesh parser uninitialized) (formatObject python (.mesh name mesh)) =
      .ok (triangulated python parser.float uninitialized (.mesh name mesh)) := by
  have hname : parseString "name" (meshMembers python name mesh) = .ok name := rfl
  have hfaces : parseFaces parser (meshMembers python name mesh) =
      .ok (mesh.tessfaces.flatMap (triangulation python parser.float mesh)) :=
    parseEach_flatMap fun face _ => parseFaces_format h mesh face
  have hmaterials : parseMaterials parser (meshMembers python name mesh) =
      .ok (mesh.materials.flatMap fun material => [roundedMaterial python parser.float material]) :=
    parseEach_flatMap fun material _ => parseEach_single (parseMaterial_members h material)
  apply parseEach_single
  rw [parseMesh, hname, hfaces, hmaterials, ← List.map_eq_flatMap]
  rfl

theorem parseMeshes_document (h : Inverse python parser) (obs : List (Object D)) :
    parseMeshes parser uninitialized (document python obs) =
      .ok (obs.flatMap (triangulated python parser.float uninitialized)) := by
  apply parseEach_flatMap
  intro ob _
  cases ob with
  | mesh name mesh => exact parseMesh_members h name mesh
  | other type => rfl

/-- What is exported from a selection is read back as its meshes, with their colours rounded, and
in triangles of rounded vertices. -/
theorem load_execute (h : Inverse python parser) {obs : List (Object D)} (hne : obs ≠ []) :
    ∃ document, execute python obs = some document ∧
      parseMeshes parser uninitialized document =
        .ok (obs.flatMap (triangulated python parser.float uninitialized)) :=
  ⟨_, if_neg hne, parseMeshes_document h obs⟩

/-- Numbers of millionths as Python prints some of them, and the others with an exponent. -/
def spell (y : Int) : Str :=
  if y = 0 then "0.0".toList
  else if y = 1000000 then "1.0".toList
  else if y = 123460 then "0.12346".toList
  else (if y < 0 then ['-'] else []) ++ (Nat.toDigits 10 y.natAbs ++ "e-06".toList)

/-- The digits before the exponent. -/
def mantissa (s : Str) : Int := Nat.ofDigitChars 10 (s.take (s.length - 4)) 0

def unspell (s : Str) : Int :=
  if s = "0.0".toList then 0
  else if s = "1.0".toList then 1000000
  else if s = "0.12346".toList then 123460
  else if s.head? = some '-' then -mantissa s.tail
  else mantissa s

theorem mantissa_append (n : Nat) : mantissa (Nat.toDigits 10 n ++ "e-06".toList) = n := by
  have hlength : (Nat.toDigits 10 n ++ "e-06".toList).length - 4 = (Nat.toDigits 10 n).length := by
    rw [List.length_append]
    exact Nat.add_sub_cancel _ _
  rw [mantissa, hlength, List.take_left]
  exact congrArg Nat.cast Nat.ofDigitChars_ten_toDigits

theorem unspell_spell (y : Int) : unspell (spell y) = y := by
  unfold spell
  split
  · subst y
    rfl
  split
  · subst y
    rfl
  split
  · subst y
    rfl
  have hexponent (front s : Str) (hs : 'e' ∉ s) :
      front ++ (Nat.toDigits 10 y.natAbs ++ "e-06".toList) ≠ s := by
    rintro rfl
    exact hs (by simp)
  rw [unspell, if_neg (hexponent _ _ (by decide)), if_neg (hexponent _ _ (by decide)),
    if_neg (hexponent _ _ (by decide))]
  by_cases hneg : y < 0
  · rw [if_pos hneg]
    show -mantissa (Nat.toDigits 10 y.natAbs ++ "e-06".toList) = y
    rw [mantissa_append]
    omega
  · have hhead : (Nat.toDigits 10 y.natAbs ++ "e-06".toList).head? ≠ some '-' := by
      rw [List.head?_append_of_ne_nil _ Nat.toDigits_ne_nil]
      intro hminus
      have hdigit := Nat.isDigit_of_mem_toDigits (by decide) (by decide)
        (List.mem_of_mem_head? hminus)
      cases hdigit
    rw [if_neg hneg, List.nil_append, if_neg hhead, mantissa_append]
    omega

/-- Numbers of millionths in Python. -/
def millionths : Python Int where
  round y := 10 * ((y + 5) / 10)
  str := spell

/-- A parser for such numbers, whose cast keeps them as they are. -/
def reader : NumberParser Int Int where
  tryParseFloat := unspell
  tryParse s := .ofNat (Nat.ofDigitChars 10 s 0)
  float := id

theorem millionths_inverse : Inverse millionths reader where
  float := unspell_spell
  int _ _ := congrArg Int32.ofNat Nat.ofDigitChars_ten_toDigits

def red : Material Int where
  name := "Red".toList
  alpha := 1000000
  diffuseColor := ⟨123456, 0, 0⟩
  specularColor := ⟨1000000, 1000000, 1000000⟩

/-- A square of one quad. -/
def plate : Object Int :=
  .mesh "Plate".toList
    { vertices := [⟨⟨0, 0, 0⟩, ⟨0, 0, 1000000⟩⟩, ⟨⟨1000000, 0, 0⟩, ⟨0, 0, 1000000⟩⟩,
        ⟨⟨1000000, 1000000, 0⟩, ⟨0, 0, 1000000⟩⟩, ⟨⟨0, 1000000, 0⟩, ⟨0, 0, 1000000⟩⟩]
      materials := [red]
      tessfaces := [⟨[0, 1, 2, 3], 0, .inr rfl, by decide⟩] }

theorem plate_loaded :
    ∃ document, execute millionths [plate] = some document ∧
      (parseMeshes reader origin document).map (List.map (·.faces.length)) = .ok [2] := by
  obtain ⟨document, hwrite, hread⟩ := load_execute millionths_inverse (show [plate] ≠ [] by simp)
  exact ⟨document, hwrite, by rw [hread]; rfl⟩

/-- Nothing is written for an empty selection, and colours are rounded. -/
theorem red_rounded :
    execute millionths [] = none ∧
      ∃ document meshes, execute millionths [plate] = some document ∧
        parseMeshes reader origin document = .ok meshes ∧
        meshes.flatMap (·.materials.map (·.diffuseColor)) ≠ [red.diffuseColor] :=
  ⟨rfl, _, _, rfl, parseMeshes_document millionths_inverse [plate], by decide⟩

end Starfall.Exporter
