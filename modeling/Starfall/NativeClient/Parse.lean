import Starfall.NativeClient.Model

/-! How `Model.cpp` reads meshes out of a document.  Entries of another shape than the loops look
for are skipped, and members of another type than expected throw. -/

namespace Starfall.Models

abbrev Str := List Char

/-- A `Poco::Dynamic::Var` that was parsed from JSON. -/
inductive Var
  | string (s : Str)
  | array (items : List Var)
  | struct (members : List (Str × Var))

inductive Exception
  | invalidAccess
  | badCast
  deriving DecidableEq

abbrev Parsed := Except Exception

/-- What `Poco::NumberParser` leaves in a `double` and in an `int` that was 0, and the cast of a
`double` to a `float`. -/
structure NumberParser (D R : Type) where
  tryParseFloat : Str → D
  tryParse : Str → Int32
  float : D → R

/-- `extract<string>`. -/
def Var.extract : Var → Parsed Str
  | .string s => pure s
  | _ => throw .badCast

variable {D R : Type} (parser : NumberParser D R)

/-- The vector of three elements, if they are strings. -/
def parseElements (x y z : Var) : Parsed (Vec3 R) := do
  let x ← x.extract
  let y ← y.extract
  let z ← z.extract
  pure ⟨parser.float (parser.tryParseFloat x), parser.float (parser.tryParseFloat y),
    parser.float (parser.tryParseFloat z)⟩

/-- `parse<glm::vec3>`. -/
def parseVec3 (member : String) (fromStruct : List (Str × Var)) : Parsed (Vec3 R) :=
  match fromStruct.lookup member.toList with
  | some (.array [x, y, z]) => parseElements parser x y z
  | _ => throw .invalidAccess

/-- The loop of `parse<vector<glm::vec3>>`. -/
def parseVectors : List Var → Parsed (List (Vec3 R))
  | [] => pure []
  | .array [x, y, z] :: elements => do
    let v ← parseElements parser x y z
    let vs ← parseVectors elements
    pure (v :: vs)
  | _ :: elements => parseVectors elements

/-- `parse<vector<glm::vec3>>`. -/
def parseVec3s (member : String) (fromStruct : List (Str × Var)) : Parsed (List (Vec3 R)) :=
  match fromStruct.lookup member.toList with
  | some (.array elements) => parseVectors parser elements
  | _ => throw .invalidAccess

/-- `parse<string>`. -/
def parseString (member : String) (fromStruct : List (Str × Var)) : Parsed Str :=
  match fromStruct.lookup member.toList with
  | some (.string s) => pure s
  | _ => throw .invalidAccess

/-- `parse<Poco::UInt32>`. -/
def parseUInt32 (member : String) (fromStruct : List (Str × Var)) : Parsed UInt32 := do
  let s ← parseString member fromStruct
  pure (parser.tryParse s).toUInt32

/-- `parse<float>`. -/
def parseFloat (member : String) (fromStruct : List (Str × Var)) : Parsed R := do
  let s ← parseString member fromStruct
  pure (parser.float (parser.tryParseFloat s))

/-- `parse<vector<Poco::Dynamic::Var>>`. -/
def parseArray (member : String) (fromStruct : List (Str × Var)) : Parsed (List Var) :=
  match fromStruct.lookup member.toList with
  | some (.array items) => pure items
  | _ => throw .invalidAccess

/-- The loops over arrays of structs, each with a struct as the member of this name. -/
def parseEach {A : Type} (member : String) (parse : List (Str × Var) → Parsed A) :
    List Var → Parsed (List A)
  | [] => pure []
  | .struct members :: vars =>
    match members.lookup member.toList with
    | some (.struct inner) => do
      let a ← parse inner
      let as ← parseEach member parse vars
      pure (a :: as)
    | _ => parseEach member parse vars
  | _ :: vars => parseEach member parse vars

def parseMaterial (materialStruct : List (Str × Var)) : Parsed (Material R) := do
  let alpha ← parseFloat parser "alpha" materialStruct
  let name ← parseString "name" materialStruct
  let diffuseColor ← parseVec3 parser "diffuse_color" materialStruct
  let specularColor ← parseVec3 parser "specular_color" materialStruct
  pure { name, alpha, diffuseColor, specularColor }

def parseMaterials (meshStruct : List (Str × Var)) : Parsed (List (Material R)) := do
  let materials ← parseArray "materials" meshStruct
  parseEach "material" (parseMaterial parser) materials

def parseFace (faceStruct : List (Str × Var)) : Parsed (Face R) := do
  let vertices ← parseVec3s parser "vertices" faceStruct
  let normals ← parseVec3s parser "normals" faceStruct
  let materialIndex ← parseUInt32 parser "material_index" faceStruct
  pure { vertices, normals, materialIndex }

def parseFaces (meshStruct : List (Str × Var)) : Parsed (List (Face R)) := do
  let faces ← parseArray "faces" meshStruct
  parseEach "face" (parseFace parser) faces

variable [LinearOrder R] (uninitialized : BoundingBox R)

def parseMesh (meshStruct : List (Str × Var)) : Parsed (Mesh R) := do
  let name ← parseString "name" meshStruct
  let faces ← parseFaces parser meshStruct
  let materials ← parseMaterials parser meshStruct
  pure { name, materials, faces, boundingBox := calculateBoundingBox uninitialized faces }

def parseMeshes : Var → Parsed (List (Mesh R))
  | .struct members =>
    match members.lookup "meshes".toList with
    | some (.array asset) => parseEach "mesh" (parseMesh parser uninitialized) asset
    | _ => throw .invalidAccess
  | _ => throw .invalidAccess

theorem parseEach_single {A : Type} {member : String} {parse : List (Str × Var) → Parsed A}
    {inner : List (Str × Var)} {a : A} (h : parse inner = .ok a) :
    parseEach member parse [.struct [(member.toList, .struct inner)]] = .ok [a] := by
  rw [parseEach, List.lookup_cons_self]
  dsimp only
  rw [h]
  rfl

theorem parseEach_append {A : Type} {member : String} {parse : List (Str × Var) → Parsed A}
    {front back : List Var} {as bs : List A} (hfront : parseEach member parse front = .ok as)
    (hback : parseEach member parse back = .ok bs) :
    parseEach member parse (front ++ back) = .ok (as ++ bs) := by
  induction front generalizing as with
  | nil =>
    cases hfront
    exact hback
  | cons var front ih =>
    cases var with
    | string s => exact ih hfront
    | array items => exact ih hfront
    | struct members =>
      rw [parseEach] at hfront
      rw [List.cons_append, parseEach]
      split at hfront
      · cases hinner : parse _ with
        | error e =>
          rw [hinner] at hfront
          cases hfront
        | ok a =>
          rw [hinner] at hfront
          cases hrest : parseEach member parse front with
          | error e =>
            rw [hrest] at hfront
            cases hfront
          | ok rest =>
            rw [hrest] at hfront
            cases hfront
            rw [ih hrest]
            rfl
      · exact ih hfront

/-- What is parsed piece by piece. -/
theorem parseEach_flatMap {A B : Type} {member : String} {parse : List (Str × Var) → Parsed A}
    {vars : B → List Var} {parsed : B → List A} {bs : List B}
    (h : ∀ b ∈ bs, parseEach member parse (vars b) = .ok (parsed b)) :
    parseEach member parse (bs.flatMap vars) = .ok (bs.flatMap parsed) := by
  induction bs with
  | nil => rfl
  | cons b bs ih =>
    rw [List.flatMap_cons, List.flatMap_cons]
    apply parseEach_append (h b List.mem_cons_self)
    exact ih fun other hother => h other (List.mem_cons_of_mem _ hother)

end Starfall.Models
