import Mathlib.Data.List.Nodup
import Starfall.Common.Spelling
import Starfall.Common.VarText
import Starfall.NativeClient.Exporter

/-! The files between the exporter and the client.  `json.dumps` writes a document, with the members
of its dictionaries in any order, and `Model::load` reads the text with `Var::parse`. -/

namespace Starfall.Exporter

open Models ProofKit

/-- The bytes of a string of ASCII. -/
def bytes (s : Models.Str) : Str := s.map fun c => c.val.toUInt8

/-- The characters that a `string` of C++ holds. -/
def chars (s : Str) : Models.Str := s.map fun b => Char.ofNat b.toNat

/-- What stands in JSON as it is: printable ASCII without quotes and backslashes. -/
def Plain (s : Models.Str) : Prop := ∀ c ∈ s, 32 ≤ c.toNat ∧ c.toNat < 127 ∧ c ≠ '"' ∧ c ≠ '\\'

instance (s : Models.Str) : Decidable (Plain s) := List.decidableBAll _ s

/-- The texts that `json.dumps` may write for a document of plain strings.  A dictionary has each
key once, and its members come in any order. -/
inductive Dumps : Var → Str → Prop
  | string {s : Models.Str} (h : Plain s) : Dumps (.string s) (Vars.quote (bytes s))
  | array {entries : List (Var × Str)} (h : ∀ e ∈ entries, Dumps e.1 e.2) :
      Dumps (.array (entries.map fun e => e.1))
        (91 :: (List.intercalate [44, 32] (entries.map fun e => e.2) ++ [93]))
  | struct {members : List (Models.Str × Var)} {entries : List (Models.Str × Var × Str)}
      (hmembers : members.Perm (entries.map fun e => (e.1, e.2.1)))
      (hnodup : (members.map Prod.fst).Nodup) (hkeys : ∀ e ∈ entries, Plain e.1)
      (h : ∀ e ∈ entries, Dumps e.2.1 e.2.2) :
      Dumps (.struct members) (123 :: (List.intercalate [44, 32]
        (entries.map fun e => Vars.quote (bytes e.1) ++ 58 :: 32 :: e.2.2) ++ [125]))

mutual

/-- A parsed value as `Model` sees it.  Texts are parsed into strings, vectors and structs. -/
def ofVar : Vars.Var → Var
  | .string s => .string (chars s)
  | .vector items => .array (ofItems items)
  | .struct members => .struct (ofMembers members)
  | _ => .string []

def ofItems : List Vars.Var → List Var
  | [] => []
  | v :: vs => ofVar v :: ofItems vs

def ofMembers : List (Str × Vars.Var) → List (Models.Str × Var)
  | [] => []
  | (k, v) :: ms => (chars k, ofVar v) :: ofMembers ms

end

theorem ofItems_eq (items : List Vars.Var) : ofItems items = items.map ofVar := by
  induction items with
  | nil => rw [ofItems, List.map_nil]
  | cons v items ih => rw [ofItems, ih, List.map_cons]

theorem ofMembers_eq (members : List (Str × Vars.Var)) :
    ofMembers members = members.map fun m => (chars m.1, ofVar m.2) := by
  induction members with
  | nil => rw [ofMembers, List.map_nil]
  | cons m members ih => rw [ofMembers, ih, List.map_cons]

section Load

variable {D R : Type} [LinearOrder R] (parser : NumberParser D R)
  (uninitialized : BoundingBox R)

/-- The meshes that `Model::load` finds in a file: none where `Var::parse` or `parseMeshes`
throws. -/
def loadMeshes (jsonData : Str) : Except Fault (List (Mesh R)) :=
  match Vars.parse jsonData with
  | .ok v =>
    match parseMeshes parser uninitialized (ofVar v) with
    | .ok meshes => pure meshes
    | .error _ => pure []
  | .error (.undefined fault) => throw fault
  | .error _ => pure []

end Load

inductive Same : Var → Var → Prop
  | string (s : Models.Str) : Same (.string s) (.string s)
  | array {entries : List (Var × Var)} (h : ∀ e ∈ entries, Same e.1 e.2) :
      Same (.array (entries.map fun e => e.1)) (.array (entries.map fun e => e.2))
  | struct {entries : List (Models.Str × Var × Var)} {members members' : List (Models.Str × Var)}
      (hmembers : members.Perm (entries.map fun e => (e.1, e.2.1)))
      (hmembers' : members'.Perm (entries.map fun e => (e.1, e.2.2)))
      (hnodup : (entries.map Prod.fst).Nodup) (h : ∀ e ∈ entries, Same e.2.1 e.2.2) :
      Same (.struct members) (.struct members')

/-- Structs that differ in the order of members, here and further down. -/
def SameMembers (members members' : List (Models.Str × Var)) : Prop :=
  Same (.struct members) (.struct members')

/-- The member of a name is there in both or in neither. -/
theorem SameMembers.lookup {members members' : List (Models.Str × Var)}
    (h : SameMembers members members') (k : Models.Str) :
    members.lookup k = none ∧ members'.lookup k = none ∨
      ∃ v v', members.lookup k = some v ∧ members'.lookup k = some v' ∧ Same v v' := by
  cases h with
  | @struct entries _ _ hmembers hmembers' hnodup h =>
    have hkeys : ∀ {view : Models.Str × Var × Var → Var},
        ((entries.map fun e => (e.1, view e)).map Prod.fst).Nodup := by
      intro view
      simpa [Function.comp_def] using hnodup
    rw [← SortedMaps.lookup_perm hmembers.symm hkeys k,
      ← SortedMaps.lookup_perm hmembers'.symm hkeys k]
    clear hmembers hmembers' hnodup hkeys
    induction entries with
    | nil => exact .inl ⟨rfl, rfl⟩
    | cons e entries ih =>
      rw [List.forall_mem_cons] at h
      rw [List.map_cons, List.map_cons, List.lookup_cons, List.lookup_cons]
      by_cases he : k == e.1
      · simp only [he]
        exact .inr ⟨_, _, rfl, rfl, h.1⟩
      · simp only [he]
        exact ih h.2

section Parse

variable {D R : Type} {parser : NumberParser D R}

theorem Same.extract {v v' : Var} (h : Same v v') : v.extract = v'.extract := by
  cases h <;> rfl

theorem parseElements_same {x x' y y' z z' : Var} (hx : Same x x') (hy : Same y y')
    (hz : Same z z') : parseElements parser x y z = parseElements parser x' y' z' := by
  rw [parseElements, parseElements, hx.extract, hy.extract, hz.extract]

theorem parseString_same {members members' : List (Models.Str × Var)}
    (h : SameMembers members members') (member : String) :
    parseString member members = parseString member members' := by
  rw [parseString, parseString]
  rcases h.lookup member.toList with ⟨hv, hv'⟩ | ⟨v, v', hv, hv', hsame⟩
  · rw [hv, hv']
  · rw [hv, hv']
    cases hsame <;> rfl

theorem parseVec3_same {members members' : List (Models.Str × Var)}
    (h : SameMembers members members') (member : String) :
    parseVec3 parser member members = parseVec3 parser member members' := by
  rw [parseVec3, parseVec3]
  rcases h.lookup member.toList with ⟨hv, hv'⟩ | ⟨v, v', hv, hv', hsame⟩
  · rw [hv, hv']
  · rw [hv, hv']
    cases hsame with
    | string s => rfl
    | struct hmembers hmembers' hnodup h => rfl
    | @array entries h =>
      rcases entries with _ | ⟨x, _ | ⟨y, _ | ⟨z, _ | ⟨w, entries⟩⟩⟩⟩
      · rfl
      · rfl
      · rfl
      · exact parseElements_same (h x (by simp)) (h y (by simp)) (h z (by simp))
      · rfl

theorem parseVectors_same {entries : List (Var × Var)} (h : ∀ e ∈ entries, Same e.1 e.2) :
    parseVectors parser (entries.map fun e => e.1) =
      parseVectors parser (entries.map fun e => e.2) := by
  induction entries with
  | nil => rfl
  | cons e entries ih =>
    obtain ⟨v, v'⟩ := e
    rw [List.forall_mem_cons] at h
    have hrest := ih h.2
    rw [List.map_cons, List.map_cons]
    cases h.1 with
    | string s => exact hrest
    | struct hmembers hmembers' hnodup h => exact hrest
    | @array triple htriple =>
      rcases triple with _ | ⟨x, _ | ⟨y, _ | ⟨z, _ | ⟨w, triple⟩⟩⟩⟩
      · exact hrest
      · exact hrest
      · exact hrest
      · have helements : parseElements parser x.1 y.1 z.1 = parseElements parser x.2 y.2 z.2 :=
          parseElements_same (htriple x (by simp)) (htriple y (by simp)) (htriple z (by simp))
        simp only [List.map_cons, List.map_nil, parseVectors, hrest, helements]
      · exact hrest

theorem parseVec3s_same {members members' : List (Models.Str × Var)}
    (h : SameMembers members members') (member : String) :
    parseVec3s parser member members = parseVec3s parser member members' := by
  rw [parseVec3s, parseVec3s]
  rcases h.lookup member.toList with ⟨hv, hv'⟩ | ⟨v, v', hv, hv', hsame⟩
  · rw [hv, hv']
  · rw [hv, hv']
    cases hsame with
    | string s => rfl
    | struct hmembers hmembers' hnodup h => rfl
    | array h => exact parseVectors_same h

/-- The loops over arrays of structs do not see the order of members. -/
theorem parseEach_same {A : Type} {member : String} {parse : List (Models.Str × Var) → Parsed A}
    (hparse : ∀ {members members'}, SameMembers members members' → parse members = parse members')
    {entries : List (Var × Var)} (h : ∀ e ∈ entries, Same e.1 e.2) :
    parseEach member parse (entries.map fun e => e.1) =
      parseEach member parse (entries.map fun e => e.2) := by
  induction entries with
  | nil => rfl
  | cons e entries ih =>
    obtain ⟨v, v'⟩ := e
    rw [List.forall_mem_cons] at h
    have hrest := ih h.2
    have hfirst : Same v v' := h.1
    rw [List.map_cons, List.map_cons]
    dsimp only
    cases hfirst with
    | string s => exact hrest
    | array h => exact hrest
    | @struct fields members members' hmembers hmembers' hnodup hfields =>
      have hsame : SameMembers members members' := .struct hmembers hmembers' hnodup hfields
      rw [parseEach, parseEach, hrest]
      rcases hsame.lookup member.toList with ⟨hv, hv'⟩ | ⟨v, v', hv, hv', hinner⟩
      · rw [hv, hv']
      · rw [hv, hv']
        cases hinner with
        | string s => rfl
        | array h => rfl
        | @struct _ inner inner' hinner hinner' hnodup h =>
          have hinner : SameMembers inner inner' := .struct hinner hinner' hnodup h
          dsimp only
          rw [hparse hinner]

theorem parseArray_same {A : Type} {members members' : List (Models.Str × Var)}
    (h : SameMembers members members') (member each : String)
    {parse : List (Models.Str × Var) → Parsed A}
    (hparse : ∀ {members members'}, SameMembers members members' →
      parse members = parse members') :
    (parseArray member members >>= parseEach each parse) =
      parseArray member members' >>= parseEach each parse := by
  rw [parseArray, parseArray]
  rcases h.lookup member.toList with ⟨hv, hv'⟩ | ⟨v, v', hv, hv', hsame⟩
  · rw [hv, hv']
  · rw [hv, hv']
    cases hsame with
    | string s => rfl
    | struct hmembers hmembers' hnodup h => rfl
    | array h => exact parseEach_same hparse h

theorem parseMaterial_same {members members' : List (Models.Str × Var)}
    (h : SameMembers members members') :
    parseMaterial parser members = parseMaterial parser members' := by
  rw [parseMaterial, parseMaterial, parseFloat, parseFloat, parseString_same h,
    parseString_same h, parseVec3_same h, parseVec3_same h]

theorem parseFace_same {members members' : List (Models.Str × Var)}
    (h : SameMembers members members') :
    parseFace parser members = parseFace parser members' := by
  rw [parseFace, parseFace, parseUInt32, parseUInt32, parseString_same h, parseVec3s_same h,
    parseVec3s_same h]

variable [LinearOrder R] {uninitialized : BoundingBox R}

theorem parseMesh_same {members members' : List (Models.Str × Var)}
    (h : SameMembers members members') :
    parseMesh parser uninitialized members = parseMesh parser uninitialized members' := by
  have hfaces : parseFaces parser members = parseFaces parser members' :=
    parseArray_same h "faces" "face" parseFace_same
  have hmaterials : parseMaterials parser members = parseMaterials parser members' :=
    parseArray_same h "materials" "material" parseMaterial_same
  rw [parseMesh, parseMesh, parseString_same h, hfaces, hmaterials]

/-- The meshes of a document do not depend on the order of its members. -/
theorem parseMeshes_same {document document' : Var} (h : Same document document') :
    parseMeshes parser uninitialized document = parseMeshes parser uninitialized document' := by
  cases h with
  | string s => rfl
  | array h => rfl
  | @struct entries members members' hmembers hmembers' hnodup h =>
    have hsame : SameMembers members members' := .struct hmembers hmembers' hnodup h
    rw [parseMeshes, parseMeshes]
    rcases hsame.lookup "meshes".toList with ⟨hv, hv'⟩ | ⟨v, v', hv, hv', hinner⟩
    · rw [hv, hv']
    · rw [hv, hv']
      cases hinner with
      | string s => rfl
      | struct hmembers hmembers' hnodup h => rfl
      | array h => exact parseEach_same parseMesh_same h

end Parse

theorem Plain.toNat_byte {s : Models.Str} (h : Plain s) {c : Char} (hc : c ∈ s) :
    c.val.toUInt8.toNat = c.toNat := by
  have hlt := (h c hc).2.1
  rw [UInt32.toNat_toUInt8]
  exact Nat.mod_eq_of_lt (show c.toNat < 256 by omega)

theorem Plain.chars_bytes {s : Models.Str} (h : Plain s) : chars (bytes s) = s := by
  rw [chars, bytes, List.map_map]
  conv_rhs => rw [← List.map_id s]
  refine List.map_congr_left fun c hc => ?_
  rw [Function.comp_apply, h.toNat_byte hc, Char.ofNat_toNat, id]

theorem Plain.not_quote {s : Models.Str} (h : Plain s) : 34 ∉ bytes s := by
  intro hmem
  obtain ⟨c, hc, heq⟩ := List.mem_map.mp hmem
  have hnat := h.toNat_byte hc
  rw [heq] at hnat
  refine (h c hc).2.2.1 ?_
  rw [← Char.ofNat_toNat c, ← hnat]
  rfl

section Entries

open Vars

variable {α : Type} {entries : List α} {view : α → Vars.Var} {key text : α → Str}

theorem separates_comma : Separates [44, 32] := .inr ⟨[], [32], rfl, nofun, by decide⟩

theorem spells_separated (h : ∀ a ∈ entries, Spells (.value (view a)) (text a)) :
    Spells (.items (entries.map view)) (List.intercalate [44, 32] (entries.map text)) := by
  induction entries with
  | nil => exact .noItems
  | cons a entries ih =>
    rw [List.forall_mem_cons] at h
    cases entries with
    | nil =>
      have hlast := Spells.item h.1 (.inl (nofun : Spaces [])) .noItems
      simpa using hlast
    | cons b entries =>
      have hitem := Spells.item h.1 separates_comma (ih h.2)
      simpa [List.intercalate_cons_cons] using hitem

theorem spells_dictionary (hkeys : ∀ a ∈ entries, 34 ∉ key a)
    (h : ∀ a ∈ entries, Spells (.value (view a)) (text a)) :
    Spells (.members (entries.map fun a => (key a, view a)))
      (List.intercalate [44, 32] (entries.map fun a => quote (key a) ++ 58 :: 32 :: text a)) := by
  have hspace : Spaces [32] := by decide
  have hnone : Spaces [] := nofun
  induction entries with
  | nil => exact .noMembers
  | cons a entries ih =>
    rw [List.forall_mem_cons] at h hkeys
    cases entries with
    | nil =>
      have hlast := Spells.member hkeys.1 hnone hspace h.1 (.inl hnone) .noMembers
      simpa [quote] using hlast
    | cons b entries =>
      have hmember := Spells.member hkeys.1 hnone hspace h.1 separates_comma (ih hkeys.2 h.2)
      simpa [quote, List.intercalate_cons_cons] using hmember

end Entries

/-- A dictionary that was written, and what is read of it, where the members are sorted. -/
theorem same_dictionary {members : List (Models.Str × Var)}
    {entries : List (Models.Str × Var × Str)} {view : Models.Str × Var × Str → Vars.Var}
    (hmembers : members.Perm (entries.map fun e => (e.1, e.2.1)))
    (hnodup : (members.map Prod.fst).Nodup) (hkeys : ∀ e ∈ entries, Plain e.1)
    (hview : ∀ e ∈ entries, Same e.2.1 (ofVar (view e))) :
    Same (.struct members) (ofVar (.struct
      (SortedMaps.insertAll [] (entries.map fun e => (bytes e.1, view e))))) := by
  have hchars : (entries.map fun e => (chars (bytes e.1), ofVar (view e))) =
      entries.map fun e => (e.1, ofVar (view e)) :=
    List.map_congr_left fun e he => by rw [(hkeys e he).chars_bytes]
  have hentries : (entries.map Prod.fst).Nodup := by
    have hperm := (hmembers.map Prod.fst).nodup hnodup
    simpa [Function.comp_def] using hperm
  have hbytes : ((entries.map fun e => (bytes e.1, view e)).map Prod.fst).Nodup := by
    refine List.Nodup.of_map chars ?_
    have hkeys : (entries.map fun e => chars (bytes e.1)) = entries.map Prod.fst :=
      List.map_congr_left fun e he => (hkeys e he).chars_bytes
    simpa [Function.comp_def, hkeys] using hentries
  have hsorted : (SortedMaps.insertAll [] (entries.map fun e => (bytes e.1, view e))).Perm
      (entries.map fun e => (bytes e.1, view e)) := SortedMaps.insertAll_perm hbytes
  have hinsert := hsorted.map fun m => (chars m.1, ofVar m.2)
  have hsame : ∀ e ∈ entries.map fun e => (e.1, e.2.1, ofVar (view e)), Same e.2.1 e.2.2 := by
    intro e he
    obtain ⟨e', he', rfl⟩ := List.mem_map.mp he
    exact hview e' he'
  rw [ofVar, ofMembers_eq]
  refine .struct ?_ ?_ ?_ hsame
  · simpa [Function.comp_def] using hmembers
  · simpa [Function.comp_def, hchars] using hinsert
  · simpa [Function.comp_def] using hentries

/-- What was written is read, with its members sorted. -/
theorem Dumps.spells {v : Var} {text : Str} (h : Dumps v text) :
    ∃ u, Vars.Spells (.value u) text ∧ Same v (ofVar u) := by
  have hinhabited : Nonempty Vars.Var := ⟨.empty⟩
  have hnone : Vars.Spaces [] := nofun
  induction h with
  | @string s h =>
    refine ⟨.string (bytes s), .quoted h.not_quote, ?_⟩
    rw [ofVar, h.chars_bytes]
    exact .string s
  | @array entries h ih =>
    choose! view hview using ih
    refine ⟨.vector (entries.map view),
      .vector hnone (spells_separated fun e he => (hview e he).1), ?_⟩
    have hsame : Same (.array ((entries.map fun e => (e.1, ofVar (view e))).map fun e => e.1))
        (.array ((entries.map fun e => (e.1, ofVar (view e))).map fun e => e.2)) := by
      refine .array fun e he => ?_
      obtain ⟨e', he', rfl⟩ := List.mem_map.mp he
      exact (hview e' he').2
    rw [ofVar, ofItems_eq]
    simpa [Function.comp_def] using hsame
  | @struct members entries hmembers hnodup hkeys h ih =>
    choose! view hview using ih
    exact ⟨_, .struct hnone (spells_dictionary (fun e he => (hkeys e he).not_quote)
      fun e he => (hview e he).1),
      same_dictionary hmembers hnodup hkeys fun e he => (hview e he).2⟩

/-- A text may be written. -/
def Writable (v : Var) : Prop := ∃ text, Dumps v text

theorem writable_string {s : Models.Str} (h : Plain s) : Writable (.string s) := ⟨_, .string h⟩

theorem writable_array {items : List Var} (h : ∀ v ∈ items, Writable v) :
    Writable (.array items) := by
  choose! text htext using h
  have hentries : ∀ e ∈ items.map fun v => (v, text v), Dumps e.1 e.2 := by
    intro e he
    obtain ⟨v, hv, rfl⟩ := List.mem_map.mp he
    exact htext v hv
  have harray := Dumps.array hentries
  rw [List.map_map] at harray
  simp only [Function.comp_def, List.map_id'] at harray
  exact ⟨_, harray⟩

theorem writable_struct {members : List (Models.Str × Var)} (hnodup : (members.map Prod.fst).Nodup)
    (hkeys : ∀ m ∈ members, Plain m.1) (h : ∀ m ∈ members, Writable m.2) :
    Writable (.struct members) := by
  have hchosen : ∀ m : Models.Str × Var, ∃ text, m ∈ members → Dumps m.2 text := by
    intro m
    by_cases hm : m ∈ members
    · obtain ⟨text, htext⟩ := h m hm
      exact ⟨text, fun _ => htext⟩
    · exact ⟨[], fun hmem => absurd hmem hm⟩
  choose text htext using hchosen
  have hmembers :
      members = (members.map fun m => (m.1, m.2, text m)).map fun e => (e.1, e.2.1) := by
    simp [Function.comp_def]
  refine ⟨_, .struct (.of_eq hmembers) hnodup (fun e he => ?_) fun e he => ?_⟩
  · obtain ⟨m, hm, rfl⟩ := List.mem_map.mp he
    exact hkeys m hm
  · obtain ⟨m, hm, rfl⟩ := List.mem_map.mp he
    exact htext m hm

theorem writable_single {k : Models.Str} (hk : Plain k) {v : Var} (h : Writable v) :
    Writable (.struct [(k, v)]) := by
  refine writable_struct (List.nodup_singleton k) ?_ ?_
  · simpa only [List.forall_mem_cons] using ⟨hk, nofun⟩
  · simpa only [List.forall_mem_cons] using ⟨h, nofun⟩

/-- The names of an object, its own and those of its materials, are plain. -/
def Object.Plain {R : Type} : Object R → Prop
  | .mesh name data =>
    Exporter.Plain name ∧ ∀ material ∈ data.materials, Exporter.Plain material.name
  | .other _ => True

instance {R : Type} (ob : Object R) : Decidable ob.Plain :=
  match ob with
  | .mesh name data => inferInstanceAs
      (Decidable (Exporter.Plain name ∧ ∀ material ∈ data.materials, Exporter.Plain material.name))
  | .other _ => inferInstanceAs (Decidable True)

section Files

variable {R : Type} {python : Python R} (hstr : ∀ y, Plain (python.str y))

include hstr

theorem writable_coordinates (v : Models.Vec3 R) : Writable (coordinates python v) := by
  refine writable_array fun e he => ?_
  obtain ⟨y, -, rfl⟩ := List.mem_map.mp he
  exact writable_string (hstr _)

omit hstr in
theorem plain_strInt (n : Nat) : Plain (strInt n) := by
  intro c hc
  have hdigit := Nat.isDigit_of_mem_toDigits (by decide) (by decide) hc
  simp only [Char.isDigit, Bool.and_eq_true, decide_eq_true_eq, ge_iff_le,
    UInt32.le_iff_toNat_le] at hdigit
  have hlow : 48 ≤ c.toNat := hdigit.1
  have hhigh : c.toNat ≤ 57 := hdigit.2
  refine ⟨by omega, by omega, ?_, ?_⟩
  · rintro rfl
    exact absurd hlow (by decide)
  · rintro rfl
    exact absurd hhigh (by decide)

theorem writable_formatFaces (mesh : MeshData R) (face : Tessface mesh.vertices.length) :
    ∀ v ∈ formatFaces python mesh face, Writable v := by
  have hface (a b c : Fin face.vertices.length) : Writable (formatFace python mesh face a b c) := by
    have hcorners (view : Fin face.vertices.length → Models.Vec3 R) :
        Writable (.array ([a, b, c].map fun x => coordinates python (view x))) := by
      refine writable_array fun v hv => ?_
      obtain ⟨x, -, rfl⟩ := List.mem_map.mp hv
      exact writable_coordinates hstr _
    have hmembers : Writable (.struct (faceMembers python mesh face a b c)) := by
      refine writable_struct ?_ ?_ ?_
      · show ["vertices".toList, "material_index".toList, "normals".toList].Nodup
        decide
      · simp only [faceMembers, List.forall_mem_cons]
        decide
      · simp only [faceMembers, List.forall_mem_cons]
        exact ⟨hcorners _, writable_string (plain_strInt _), hcorners _, nofun⟩
    exact writable_single (by decide) hmembers
  rw [formatFaces]
  split
  · simp only [List.forall_mem_cons]
    exact ⟨hface _ _ _, nofun⟩
  · simp only [List.forall_mem_cons]
    exact ⟨hface _ _ _, hface _ _ _, nofun⟩

theorem writable_material {material : Material R} (hname : Plain material.name) :
    ∀ v ∈ formatMaterial python material, Writable v := by
  have hmembers : Writable (.struct (materialMembers python material)) := by
    refine writable_struct ?_ ?_ ?_
    · show ["name".toList, "alpha".toList, "diffuse_color".toList,
        "specular_color".toList].Nodup
      decide
    · simp only [materialMembers, List.forall_mem_cons]
      decide
    · simp only [materialMembers, List.forall_mem_cons]
      exact ⟨writable_string hname, writable_string (hstr _), writable_coordinates hstr _,
        writable_coordinates hstr _, nofun⟩
  simp only [formatMaterial, List.forall_mem_cons]
  exact ⟨writable_single (by decide) hmembers, nofun⟩

theorem writable_object {ob : Object R} (hplain : ob.Plain) :
    ∀ v ∈ formatObject python ob, Writable v := by
  cases ob with
  | other type => exact nofun
  | mesh name mesh =>
    have hmembers : Writable (.struct (meshMembers python name mesh)) := by
      refine writable_struct ?_ ?_ ?_
      · show ["name".toList, "faces".toList, "materials".toList].Nodup
        decide
      · simp only [meshMembers, List.forall_mem_cons]
        decide
      · simp only [meshMembers, List.forall_mem_cons]
        refine ⟨writable_string hplain.1, writable_array ?_, writable_array ?_, nofun⟩
        · intro v hv
          obtain ⟨face, -, hv⟩ := List.mem_flatMap.mp hv
          exact writable_formatFaces hstr mesh face v hv
        · intro v hv
          obtain ⟨material, hmaterial, hv⟩ := List.mem_flatMap.mp hv
          exact writable_material hstr (hplain.2 material hmaterial) v hv
    simp only [formatObject, List.forall_mem_cons]
    exact ⟨writable_single (by decide) hmembers, nofun⟩

theorem writable_document {obs : List (Object R)} (hplain : ∀ ob ∈ obs, ob.Plain) :
    Writable (document python obs) := by
  refine writable_single (by decide) (writable_array fun v hv => ?_)
  obtain ⟨ob, hob, hv⟩ := List.mem_flatMap.mp hv
  exact writable_object hstr (hplain ob hob) v hv

end Files

section Load

variable {D R : Type} [LinearOrder R] {python : Python D} {parser : NumberParser D R}
  {uninitialized : BoundingBox R}

/-- Whatever text is written for the document of an export, the client finds its meshes. -/
theorem loadMeshes_dumps (h : Inverse python parser) {obs : List (Object D)} {text : Str}
    (hdumps : Dumps (document python obs) text) :
    loadMeshes parser uninitialized text =
      .ok (obs.flatMap (triangulated python parser.float uninitialized)) := by
  obtain ⟨u, hspells, hsame⟩ := hdumps.spells
  have hparse := hspells.parse_eq []
  rw [List.append_nil] at hparse
  rw [loadMeshes, hparse]
  dsimp only
  rw [← parseMeshes_same hsame, parseMeshes_document h]
  rfl

/-- The exporter writes a file for every selection with plain names that is not empty, and from
every such file the client loads the triangulated meshes. -/
theorem load_file (h : Inverse python parser) (hstr : ∀ y, Plain (python.str y))
    {obs : List (Object D)} (hne : obs ≠ []) (hplain : ∀ ob ∈ obs, ob.Plain) :
    ∃ document, execute python obs = some document ∧ (∃ text, Dumps document text) ∧
      ∀ text, Dumps document text →
        loadMeshes parser uninitialized text =
          .ok (obs.flatMap (triangulated python parser.float uninitialized)) :=
  ⟨_, if_neg hne, writable_document hstr hplain, fun _ hdumps => loadMeshes_dumps h hdumps⟩

end Load

theorem plain_spell (y : Int) : Plain (spell y) := by
  have hexponent : Plain "e-06".toList := by decide
  have hminus : Plain ['-'] := by decide
  rw [spell]
  split
  · decide
  split
  · decide
  split
  · decide
  intro c hc
  rw [List.mem_append, List.mem_append] at hc
  rcases hc with hc | hc | hc
  · split at hc
    · exact hminus c hc
    · cases hc
  · exact plain_strInt _ c hc
  · exact hexponent c hc

theorem plate_written : ∃ text, Dumps (document millionths [plate]) text :=
  writable_document plain_spell (by decide)

/-- The plate as a file. -/
theorem plate_filed : ∃ document text, execute millionths [plate] = some document ∧
    Dumps document text ∧
      loadMeshes reader origin text = .ok (triangulated millionths id origin plate) := by
  have hplain : ∀ ob ∈ [plate], ob.Plain := by decide
  obtain ⟨document, hwritten, ⟨text, hdumps⟩, hload⟩ :=
    load_file millionths_inverse plain_spell (List.cons_ne_nil plate []) hplain
  refine ⟨document, text, hwritten, hdumps, ?_⟩
  rw [hload text hdumps]
  rfl

end Starfall.Exporter
