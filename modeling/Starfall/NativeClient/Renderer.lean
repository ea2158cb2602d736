import Starfall.NativeClient.ModelFile

/-! `MeshRenderer::update` and `Model::render`: the vertices of a mesh as OpenGL gets them.  Ten
floats stand in the data for each vertex, its place, its normal and its colour, and faces without a
material or of another size than three are left out. -/

namespace Starfall.Models

variable {R : Type}

structure MeshRenderer (R : Type) where
  data : List R
  count : Nat

/-- What a vertex adds to the data. -/
def vertexData (material : Material R) (vertex normal : Models.Vec3 R) : List R :=
  [vertex.x, vertex.y, vertex.z, normal.x, normal.y, normal.z, material.diffuseColor.x,
    material.diffuseColor.y, material.diffuseColor.z, material.alpha]

def MeshRenderer.push (renderer : MeshRenderer R) (floats : List R) : MeshRenderer R :=
  ⟨renderer.data ++ floats, renderer.count + 1⟩

/-- A round of the loop over the faces. -/
def MeshRenderer.face (materials : List (Material R)) (renderer : MeshRenderer R) (face : Face R) :
    MeshRenderer R :=
  match materials[face.materialIndex.toNat]? with
  | some material =>
    if face.vertices.length = 3 ∧ face.normals.length = 3 then
      (face.vertices.zip face.normals).foldl
        (fun renderer corner => renderer.push (vertexData material corner.1 corner.2)) renderer
    else
      renderer
  | none => renderer

def MeshRenderer.update (mesh : Mesh R) : MeshRenderer R :=
  mesh.faces.foldl (MeshRenderer.face mesh.materials) ⟨[], 0⟩

/-- The vertices that `glDrawArrays` takes out of the data, each with its ten floats.  The address
of the first float of no data is not defined, and floats behind the data are not there. -/
def MeshRenderer.draw (renderer : MeshRenderer R) : Except Fault (List (List R)) :=
  if renderer.data = [] then
    throw (.outOfRange 0)
  else if renderer.data.length < 10 * renderer.count then
    throw (.outOfRange renderer.data.length)
  else
    pure ((List.range renderer.count).map fun i => (renderer.data.drop (10 * i)).take 10)

/-- The loop of `Model::render` over the renderers. -/
def draw (renderers : List (MeshRenderer R)) : Except Fault (List (List (List R))) :=
  renderers.mapM MeshRenderer.draw

/-- The vertices of a face that get into the data. -/
def drawn (materials : List (Material R)) (face : Face R) : List (List R) :=
  match materials[face.materialIndex.toNat]? with
  | some material =>
    if face.vertices.length = 3 ∧ face.normals.length = 3 then
      (face.vertices.zip face.normals).map fun corner => vertexData material corner.1 corner.2
    else
      []
  | none => []

/-- The data are those of the vertices so far. -/
def MeshRenderer.Holds (renderer : MeshRenderer R) (vertices : List (List R)) : Prop :=
  renderer.data = vertices.flatten ∧ renderer.count = vertices.length ∧
    ∀ floats ∈ vertices, floats.length = 10

theorem MeshRenderer.Holds.push {renderer : MeshRenderer R} {vertices : List (List R)}
    (h : renderer.Holds vertices) {floats : List R} (hfloats : floats.length = 10) :
    (renderer.push floats).Holds (vertices ++ [floats]) := by
  obtain ⟨hdata, hcount, hall⟩ := h
  refine ⟨?_, ?_, List.forall_mem_append.mpr ⟨hall, by simpa using hfloats⟩⟩
  · rw [MeshRenderer.push, hdata, List.flatten_append, List.flatten_singleton]
  · rw [MeshRenderer.push, hcount, List.length_append, List.length_singleton]

theorem MeshRenderer.Holds.corners {renderer : MeshRenderer R} {vertices : List (List R)}
    (h : renderer.Holds vertices) (material : Material R)
    (corners : List (Models.Vec3 R × Models.Vec3 R)) :
    (corners.foldl (fun renderer corner =>
      renderer.push (vertexData material corner.1 corner.2)) renderer).Holds
        (vertices ++ corners.map fun corner => vertexData material corner.1 corner.2) := by
  induction corners generalizing renderer vertices with
  | nil => simpa using h
  | cons corner corners ih =>
    have hrest := ih (h.push (rfl : (vertexData material corner.1 corner.2).length = 10))
    simpa using hrest

theorem MeshRenderer.Holds.face {renderer : MeshRenderer R} {vertices : List (List R)}
    (h : renderer.Holds vertices) (materials : List (Material R)) (face : Face R) :
    (renderer.face materials face).Holds (vertices ++ drawn materials face) := by
  rw [MeshRenderer.face, drawn]
  cases materials[face.materialIndex.toNat]? with
  | none => simpa using h
  | some material =>
    dsimp only
    split
    · exact h.corners material _
    · simpa using h

theorem MeshRenderer.Holds.faces {renderer : MeshRenderer R} {vertices : List (List R)}
    (h : renderer.Holds vertices) (materials : List (Material R)) (faces : List (Face R)) :
    (faces.foldl (MeshRenderer.face materials) renderer).Holds
      (vertices ++ faces.flatMap (drawn materials)) := by
  induction faces generalizing renderer vertices with
  | nil => simpa using h
  | cons face faces ih =>
    have hrest := ih (h.face materials face)
    simpa using hrest

/-- The loop of `update` leaves the data of the vertices that are drawn. -/
theorem holds_update (mesh : Mesh R) :
    (MeshRenderer.update mesh).Holds (mesh.faces.flatMap (drawn mesh.materials)) := by
  have hempty : (⟨[], 0⟩ : MeshRenderer R).Holds [] := ⟨rfl, rfl, nofun⟩
  exact hempty.faces mesh.materials mesh.faces

theorem length_flatten {vertices : List (List R)} (h : ∀ floats ∈ vertices, floats.length = 10) :
    vertices.flatten.length = 10 * vertices.length := by
  induction vertices with
  | nil => rfl
  | cons floats vertices ih =>
    rw [List.forall_mem_cons] at h
    rw [List.flatten_cons, List.length_append, h.1, ih h.2, List.length_cons]
    omega

/-- Ten floats after the other, the data are the vertices again. -/
theorem chunks_flatten {vertices : List (List R)} (h : ∀ floats ∈ vertices, floats.length = 10) :
    (List.range vertices.length).map (fun i => (vertices.flatten.drop (10 * i)).take 10) =
      vertices := by
  induction vertices with
  | nil => rfl
  | cons floats vertices ih =>
    rw [List.forall_mem_cons] at h
    have hrest : ∀ i, ((floats :: vertices).flatten.drop (10 * (i + 1))).take 10 =
        (vertices.flatten.drop (10 * i)).take 10 := by
      intro i
      rw [List.flatten_cons, show 10 * (i + 1) = floats.length + 10 * i by rw [h.1]; omega,
        List.drop_append, List.drop_of_length_le (by omega), List.nil_append,
        Nat.add_sub_cancel_left]
    rw [List.length_cons, List.range_succ_eq_map, List.map_cons, List.map_map]
    congr 1
    · rw [List.flatten_cons, Nat.mul_zero, List.drop_zero, ← h.1, List.take_left]
    · conv_rhs => rw [← ih h.2]
      exact List.map_congr_left fun i _ => hrest i

/-- Nothing behind the data is read, and what is drawn is the vertices, unless there are none. -/
theorem MeshRenderer.Holds.draw_eq {renderer : MeshRenderer R} {vertices : List (List R)}
    (h : renderer.Holds vertices) :
    renderer.draw = if vertices = [] then .error (.outOfRange 0) else .ok vertices := by
  obtain ⟨hdata, hcount, hall⟩ := h
  have hlength := length_flatten hall
  have hempty : renderer.data = [] ↔ vertices = [] := by
    rw [hdata, ← List.length_eq_zero_iff, hlength, ← List.length_eq_zero_iff]
    omega
  rw [MeshRenderer.draw]
  by_cases hnone : vertices = []
  · rw [if_pos (hempty.mpr hnone), if_pos hnone]
    rfl
  · rw [if_neg (mt hempty.mp hnone), if_neg (by rw [hdata, hlength, hcount]; omega),
      if_neg hnone, hdata, hcount, chunks_flatten hall]
    rfl

/-- All is drawn, unless one of the renderers has no data. -/
theorem draw_holds {renderers : List (MeshRenderer R)} {meshes : List (List (List R))}
    (h : List.Forall₂ MeshRenderer.Holds renderers meshes) :
    draw renderers =
      if ∃ vertices ∈ meshes, vertices = [] then .error (.outOfRange 0) else .ok meshes := by
  induction h with
  | nil => rfl
  | @cons renderer vertices renderers meshes h _ ih =>
    rw [draw] at ih
    rw [draw, List.mapM_cons, h.draw_eq, ih]
    by_cases hnone : vertices = []
    · have hsome : ∃ other ∈ vertices :: meshes, other = [] :=
        ⟨vertices, List.mem_cons_self, hnone⟩
      rw [if_pos hnone, if_pos hsome]
      rfl
    · rw [if_neg hnone]
      by_cases hrest : ∃ vertices ∈ meshes, vertices = []
      · obtain ⟨other, hmem, hother⟩ := hrest
        have hsome : ∃ other ∈ vertices :: meshes, other = [] :=
          ⟨other, List.mem_cons_of_mem _ hmem, hother⟩
        rw [if_pos ⟨other, hmem, hother⟩, if_pos hsome]
        rfl
      · have hall : ¬∃ other ∈ vertices :: meshes, other = [] := by
          rintro ⟨other, hmem, hother⟩
          rcases List.mem_cons.mp hmem with rfl | hmem
          · exact hnone hother
          · exact hrest ⟨other, hmem, hother⟩
        rw [if_neg hrest, if_neg hall]
        rfl

end Starfall.Models

namespace Starfall.Exporter

open Models

variable {D R : Type} (python : Python D) (float : D → R)

/-- The vertices of a face in the order of its triangles. -/
def corners {n : Nat} (face : Tessface n) : List (Fin n) :=
  match face.vertices with
  | [a, b, c] => [a, b, c]
  | [a, b, c, d] => [a, b, c, a, c, d]
  | _ => []

/-- What is drawn of a face: nothing when the mesh does not have its material. -/
def shownFace (mesh : MeshData D) (face : Tessface mesh.vertices.length) : List (List R) :=
  match mesh.materials[face.material_index]? with
  | some material => (corners face).map fun x => vertexData (roundedMaterial python float material)
      (rounded python float (mesh.vertices.get x).co)
      (rounded python float (mesh.vertices.get x).normal)
  | none => []

/-- What is drawn of an object, for each of its meshes. -/
def shown : Object D → List (List (List R))
  | .mesh _ mesh => [mesh.tessfaces.flatMap (shownFace python float mesh)]
  | .other _ => []

/-- Some face of the object has a material, if it is a mesh. -/
def Object.Drawable : Object D → Prop
  | .mesh _ data => ∃ face ∈ data.tessfaces, face.material_index < data.materials.length
  | .other _ => True

instance (ob : Object D) : Decidable ob.Drawable :=
  match ob with
  | .mesh _ data => inferInstanceAs
      (Decidable (∃ face ∈ data.tessfaces, face.material_index < data.materials.length))
  | .other _ => inferInstanceAs (Decidable True)

variable {python} {float}

theorem drawn_triangulation (mesh : MeshData D) (face : Tessface mesh.vertices.length) :
    (triangulation python float mesh face).flatMap
      (drawn (mesh.materials.map (roundedMaterial python float))) =
        shownFace python float mesh face := by
  obtain ⟨vertices, index, hlength, hlt⟩ := face
  have hindex : (UInt32.ofNat index).toNat = index :=
    Nat.mod_eq_of_lt (by omega)
  have hdrawn (i j k : Fin mesh.vertices.length) :
      drawn (mesh.materials.map (roundedMaterial python float))
          (triangle python float mesh index i j k) =
        match mesh.materials[index]? with
        | some material => [i, j, k].map fun x => vertexData (roundedMaterial python float material)
            (rounded python float mesh.vertices[x].co)
            (rounded python float mesh.vertices[x].normal)
        | none => [] := by
    rw [drawn, triangle, hindex, List.getElem?_map]
    cases mesh.materials[index]? with
    | none => rfl
    | some material => rfl
  rcases hlength with hthree | hfour
  · obtain ⟨a, b, c, rfl⟩ := List.length_eq_three.mp hthree
    simp only [triangulation, List.flatMap_cons, List.flatMap_nil, List.append_nil, hdrawn]
    rfl
  · obtain ⟨a, rest, rfl⟩ := List.exists_cons_of_length_eq_add_one hfour
    obtain ⟨b, c, d, rfl⟩ := List.length_eq_three.mp (Nat.succ.inj hfour)
    simp only [triangulation, List.flatMap_cons, List.flatMap_nil, List.append_nil, hdrawn]
    rw [shownFace]
    cases mesh.materials[index]? with
    | none => rfl
    | some material => rfl

theorem shownFace_eq_nil (mesh : MeshData D) (face : Tessface mesh.vertices.length) :
    shownFace python float mesh face = [] ↔ mesh.materials.length ≤ face.material_index := by
  rw [← List.getElem?_eq_none_iff, shownFace]
  cases mesh.materials[face.material_index]? with
  | none => simp
  | some material =>
    obtain ⟨vertices, index, hlength, hlt⟩ := face
    rcases hlength with hthree | hfour
    · obtain ⟨a, b, c, rfl⟩ := List.length_eq_three.mp hthree
      simp [corners]
    · obtain ⟨a, rest, rfl⟩ := List.exists_cons_of_length_eq_add_one hfour
      obtain ⟨b, c, d, rfl⟩ := List.length_eq_three.mp (Nat.succ.inj hfour)
      simp [corners]

variable (python float) in
theorem drawable_iff (ob : Object D) :
    ob.Drawable ↔ ¬∃ vertices ∈ shown python float ob, vertices = [] := by
  cases ob with
  | other type => exact ⟨fun _ => nofun, fun _ => trivial⟩
  | mesh name mesh =>
    constructor
    · rintro ⟨face, hface, hlt⟩ ⟨vertices, hmem, hnone⟩
      rw [List.mem_singleton.mp hmem, List.flatMap_eq_nil_iff] at hnone
      have hle := (shownFace_eq_nil mesh face).mp (hnone face hface)
      omega
    · intro h
      by_contra hno
      refine h ⟨_, List.mem_singleton_self _, List.flatMap_eq_nil_iff.mpr fun face hface => ?_⟩
      exact (shownFace_eq_nil mesh face).mpr (Nat.le_of_not_lt fun hlt => hno ⟨face, hface, hlt⟩)

section Draw

variable [LinearOrder R] {uninitialized : BoundingBox R}

/-- The renderers of an object hold what it shows. -/
theorem holds_triangulated (ob : Object D) :
    List.Forall₂ MeshRenderer.Holds
      ((triangulated python float uninitialized ob).map MeshRenderer.update)
      (shown python float ob) := by
  cases ob with
  | other type => exact .nil
  | mesh name mesh =>
    refine .cons ?_ .nil
    have hholds := holds_update ⟨name, mesh.materials.map (roundedMaterial python float),
      mesh.tessfaces.flatMap (triangulation python float mesh), calculateBoundingBox uninitialized
        (mesh.tessfaces.flatMap (triangulation python float mesh))⟩
    rw [List.flatMap_assoc] at hholds
    simp only [drawn_triangulation] at hholds
    exact hholds

/-- From a file that the exporter wrote the client draws what the selection shows, if each mesh has
a face with a material. -/
theorem draw_dumps {parser : NumberParser D R} (h : Inverse python parser) {obs : List (Object D)}
    {text : Str} (hdumps : Dumps (document python obs) text) :
    (do
      let meshes ← loadMeshes parser uninitialized text
      draw (meshes.map MeshRenderer.update)) =
        if ∀ ob ∈ obs, ob.Drawable then .ok (obs.flatMap (shown python parser.float))
        else .error (.outOfRange 0) := by
  have hholds : List.Forall₂ MeshRenderer.Holds
      ((obs.flatMap (triangulated python parser.float uninitialized)).map MeshRenderer.update)
      (obs.flatMap (shown python parser.float)) := by
    clear hdumps
    induction obs with
    | nil => exact .nil
    | cons ob obs ih =>
      rw [List.flatMap_cons, List.flatMap_cons, List.map_append]
      exact List.rel_append (holds_triangulated ob) ih
  have hnone : (∃ vertices ∈ obs.flatMap (shown python parser.float), vertices = []) ↔
      ¬∀ ob ∈ obs, ob.Drawable := by
    have hdrawable (ob : Object D) :
        ob.Drawable ↔ ¬∃ vertices ∈ shown python parser.float ob, vertices = [] :=
      drawable_iff python parser.float ob
    simp only [hdrawable, List.mem_flatMap]
    grind
  rw [loadMeshes_dumps h hdumps]
  show draw _ = _
  rw [draw_holds hholds]
  by_cases hall : ∀ ob ∈ obs, ob.Drawable
  · rw [if_pos hall, if_neg (fun hno => hnone.mp hno hall)]
  · rw [if_neg hall, if_pos (hnone.mpr hall)]

end Draw

end Starfall.Exporter
