import Mathlib.Data.Bool.AllAny
import Starfall.Common.Accepted
import Starfall.Common.VarText

/-! Values that survive the way through a text.  What the parser returned is what the parser makes
of its text.  What `Database::Insert::TryConsole` stores of the values of this program is read back,
with the numbers and the objects turned into strings and structs. -/

namespace Starfall.Vars

open ProofKit

variable (numbers : NumberFormatter)

theorem Canonical.spells {v : Var} (h : Canonical v) :
    Spells (.value v) (appendJSONString numbers v) := by
  induction h with
  | string h => exact .quoted h
  | vector h ih =>
    have hvector := spells_vector fun v hv => .inl (ih v hv)
    rw [List.map_id'] at hvector
    rw [appendJSONString, appendItems_eq]
    exact hvector
  | @struct members hsorted hkeys h ih =>
    have hstruct := spells_struct hkeys fun m hm => .inl (ih m hm)
    rw [List.map_id' members, SortedMaps.insertAll_sorted hsorted] at hstruct
    rw [appendJSONString, appendMembers_eq]
    exact hstruct

/-- A value is what some text is parsed into exactly when its own text is. -/
theorem parsed_iff_toString (v : Var) :
    (∃ val, parse val = .ok v) ↔ parse (v.toString numbers) = .ok v := by
  constructor
  · rintro ⟨val, hval⟩
    have hparse := ((canonical_of_parse hval).spells numbers).parse_eq []
    rwa [List.append_nil] at hparse
  · exact fun h => ⟨_, h⟩

/-- What `Var::parse` makes of any text: a value whose own text it parses again, or an exception.
Only in a text that does not end as a string without quotes does it read behind the end. -/
theorem parse_settles (val : Str) :
    (∃ v, parse val = .ok v ∧ Canonical v ∧ parse (v.toString numbers) = .ok v) ∨
      (∃ message, parse val = .error (.dataFormat message)) ∨
      ∃ fault, parse val = .error (.undefined fault) ∧ ¬Closed val := by
  rcases parse_cases val with ⟨v, hv, hcanonical⟩ | hthrows | hundefined
  · exact .inl ⟨v, hv, hcanonical, (parsed_iff_toString numbers v).mp ⟨val, hv⟩⟩
  · exact .inr (.inl hthrows)
  · exact .inr (.inr hundefined)

/-- What is written without quotes and brackets. -/
def Var.bare : Var → Bool
  | .empty => true
  | .number _ => true
  | _ => false

/-- A value whose text is read back, `escaped` where `Stringifier::stringify` writes it.  There a
string may not be framed, and elsewhere an object may not end with a value that takes the bracket
along. -/
inductive Storable : Bool → Var → Prop
  | empty {escaped : Bool} : Storable escaped .empty
  | number {escaped : Bool} {n : UInt32} : Storable escaped (.number n)
  | string {escaped : Bool} {s : Str} (h : 34 ∉ s) (hframed : escaped = true → ¬Framed s) :
      Storable escaped (.string s)
  | vector {escaped : Bool} {items : List Var} (h : ∀ v ∈ items, Storable false v) :
      Storable escaped (.vector items)
  | struct {escaped : Bool} {members : List (Str × Var)} (hkeys : ∀ m ∈ members, 34 ∉ m.1)
      (h : ∀ m ∈ members, Storable false m.2) : Storable escaped (.struct members)
  | object {escaped : Bool} {members : List (Str × Var)} (hkeys : ∀ m ∈ members, 34 ∉ m.1)
      (h : ∀ m ∈ members, Storable true m.2)
      (hlast : escaped = false → ∀ m ∈ members.getLast?, m.2.bare = false) :
      Storable escaped (.object members)

/-- The text of a value where it stands, stripped. -/
def storedText (escaped : Bool) (v : Var) (indent : Nat) : Str :=
  strip (if escaped then stringify numbers v indent else appendJSONString numbers v)

theorem bare_format (n : UInt32) : Bare (numbers.format n) := by
  obtain ⟨hne, hdigits⟩ := numbers.digits n
  have hplain : ∀ a : UInt8, 48 ≤ a ∧ a ≤ 57 →
      isSpace a = false ∧ a ∉ ([34, 44, 91, 93, 123, 125] : Str) :=
    forall_bytes (by decide +kernel)
  exact ⟨hne, fun a ha => hplain a (hdigits a ha)⟩

theorem strip_bare {s : Str} (h : Bare s) : strip s = s := by
  refine strip_eq_self fun a ha => ?_
  have hspace := (h.2 a ha).1
  constructor <;> (rintro rfl; cases hspace)

theorem mem_escapeChar (c : UInt8) :
    (34 ∈ escapeChar c → c = 34) ∧ ∀ a ∈ escapeChar c, a ≠ 10 ∧ a ≠ 9 := by
  have hall : ∀ c : UInt8, (34 ∈ escapeChar c → c = 34) ∧
      (escapeChar c).all fun a => a ≠ 10 ∧ a ≠ 9 := forall_bytes (by decide +kernel)
  exact ⟨(hall c).1, List.all_iff_forall_prop.mp (hall c).2⟩

theorem not_mem_escape {s : Str} (h : 34 ∉ s) : 34 ∉ s.flatMap escapeChar := by
  rw [List.mem_flatMap]
  rintro ⟨c, hc, hquote⟩
  exact h ((mem_escapeChar c).1 hquote ▸ hc)

theorem mem_escape {s : Str} : 34 ∈ s.flatMap escapeChar ↔ 34 ∈ s := by
  constructor
  · exact not_imp_not.mp not_mem_escape
  · exact fun h => List.mem_flatMap.mpr ⟨34, h, by decide⟩

theorem strip_escape (s : Str) : strip (s.flatMap escapeChar) = s.flatMap escapeChar := by
  refine strip_eq_self fun a ha => ?_
  obtain ⟨c, -, hc⟩ := List.mem_flatMap.mp ha
  exact (mem_escapeChar c).2 a hc

theorem strip_quote (s : Str) : strip (quote s) = quote (strip s) := by
  simp [quote, strip_cons_of_ne]

theorem ends_bare {v : Var} {s : Str} {escaped : Bool} {indent : Nat} (hs : Bare s)
    (hview : reread numbers escaped v = .string s)
    (htext : storedText numbers escaped v indent = s) :
    Ends (reread numbers escaped v) (storedText numbers escaped v indent) :=
  .inr ⟨htext ▸ hs, by rw [hview, htext]⟩

theorem stored_object {members : List (Str × Var)} {n : Nat} (hn : 2 ≤ n)
    (hkeys : ∀ m ∈ members, 34 ∉ m.1)
    (h : ∀ m ∈ members, Ends (reread numbers true m.2) (storedText numbers true m.2 n))
    (hlast : n = 2 → ∀ m ∈ members.getLast?,
      Spells (.value (reread numbers true m.2)) (storedText numbers true m.2 n)) :
    Spells (.value (.struct (SortedMaps.insertAll [] (rereadMembers numbers true members))))
      (strip (inObject (stringifyMembers numbers members n) n)) := by
  rw [strip_inObject numbers (by omega), rereadMembers_eq]
  split
  · rename_i hnil
    subst hnil
    exact .struct (t := []) (spaces_replicate _) .noMembers
  · rename_i hne
    exact spells_object hn (fun m hm hquote => hkeys m hm (mem_of_mem_strip hquote)) h hlast hne

theorem stored_vector {items : List Var} (escaped : Bool) (indent : Nat)
    (h : ∀ v ∈ items, Ends (reread numbers false v) (storedText numbers false v 2)) :
    Spells (.value (reread numbers escaped (.vector items)))
      (storedText numbers escaped (.vector items) indent) := by
  have htext : storedText numbers escaped (.vector items) indent =
      strip (inVector (appendItems numbers items)) := by
    cases escaped <;> simp [storedText, stringify, appendJSONString]
  have hopen : strip (Str.ofString "[ ") = [91, 32] := by decide
  have hclose : strip (Str.ofString " ]") = [32, 93] := by decide
  rw [htext, reread, rereadItems_eq, inVector, strip_append, strip_append, appendItems_eq,
    strip_intercalate _ rfl, List.map_map, hopen, hclose]
  simpa [storedText, Function.comp_def] using spells_vector h

theorem stored_struct {members : List (Str × Var)} (escaped : Bool) (indent : Nat)
    (hkeys : ∀ m ∈ members, 34 ∉ m.1)
    (h : ∀ m ∈ members, Ends (reread numbers false m.2) (storedText numbers false m.2 2)) :
    Spells (.value (reread numbers escaped (.struct members)))
      (storedText numbers escaped (.struct members) indent) := by
  have htext : storedText numbers escaped (.struct members) indent =
      strip (inStruct (appendMembers numbers members)) := by
    cases escaped <;> simp [storedText, stringify, appendJSONString]
  have hopen : strip (Str.ofString "\x7b ") = [123, 32] := by decide
  have hclose : strip (Str.ofString " \x7d") = [32, 125] := by decide
  have hstruct := spells_struct (fun m hm hquote => hkeys m hm (mem_of_mem_strip hquote)) h
  rw [htext, reread, rereadMembers_eq, inStruct, strip_append, strip_append, appendMembers_eq,
    strip_intercalate _ rfl, List.map_map, hopen, hclose]
  simpa [storedText, Function.comp_def, strip_memberText] using hstruct

/-- What is not bare is read as it stands, and what is bare with the character after it. -/
theorem Storable.stored {escaped : Bool} {v : Var} (h : Storable escaped v) :
    ∀ indent, 2 ≤ indent → Ends (reread numbers escaped v) (storedText numbers escaped v indent) ∧
      (v.bare = false →
        Spells (.value (reread numbers escaped v)) (storedText numbers escaped v indent)) := by
  induction h with
  | @empty escaped =>
    intro indent _
    have hnull : Bare null := ⟨by decide, List.all_iff_forall_prop.mp rfl⟩
    refine ⟨ends_bare numbers hnull (by rw [reread]) ?_, nofun⟩
    cases escaped <;> simp [storedText, stringify, appendJSONString, strip_bare hnull]
  | @number escaped n =>
    intro indent _
    have hformat := bare_format numbers n
    refine ⟨ends_bare numbers hformat (by rw [reread]) ?_, nofun⟩
    cases escaped <;> simp [storedText, stringify, appendJSONString, strip_bare hformat]
  | @string escaped s h hframed =>
    intro indent _
    have hspells : Spells (.value (reread numbers escaped (.string s)))
        (storedText numbers escaped (.string s) indent) := by
      cases escaped with
      | false =>
        have hquoted := Spells.quoted fun hmem => h (mem_of_mem_strip hmem)
        simpa [reread, storedText, appendJSONString, strip_quote, quote] using hquoted
      | true =>
        have hquoted := Spells.quoted (not_mem_escape h)
        simpa [reread, storedText, stringify, stringifyString, hframed rfl, strip_cons_of_ne,
          strip_escape] using hquoted
    exact ⟨.inl hspells, fun _ => hspells⟩
  | @vector escaped items h ih =>
    intro indent _
    have hspells := stored_vector numbers escaped indent fun v hv => (ih v hv 2 (Nat.le_refl 2)).1
    exact ⟨.inl hspells, fun _ => hspells⟩
  | @struct escaped members hkeys h ih =>
    intro indent _
    have hspells := stored_struct numbers escaped indent hkeys
      fun m hm => (ih m hm 2 (Nat.le_refl 2)).1
    exact ⟨.inl hspells, fun _ => hspells⟩
  | @object escaped members hkeys h hlast ih =>
    intro indent hindent
    have hspells : Spells (.value (reread numbers escaped (.object members)))
        (storedText numbers escaped (.object members) indent) := by
      rw [reread]
      cases escaped with
      | false =>
        rw [storedText, if_neg Bool.false_ne_true, appendJSONString]
        refine stored_object numbers (Nat.le_refl 2) hkeys (fun m hm => (ih m hm 2 (by omega)).1)
          fun _ m hm => (ih m (List.mem_of_getLast? hm) 2 (by omega)).2 (hlast rfl m hm)
      | true =>
        rw [storedText, if_pos rfl, stringify, if_neg (by omega)]
        exact stored_object numbers (by omega) hkeys
          (fun m hm => (ih m hm (indent + 2) (by omega)).1) (by omega)
    exact ⟨.inl hspells, fun _ => hspells⟩

/-- What is stored of a value is read back. -/
theorem Storable.parse {v : Var} (h : Storable false v) (hbare : v.bare = false) :
    Vars.parse (strip (v.toString numbers)) = .ok (reread numbers false v) := by
  have hparse := ((h.stored numbers 2 (Nat.le_refl 2)).2 hbare).parse_eq []
  rwa [List.append_nil] at hparse

end Starfall.Vars
