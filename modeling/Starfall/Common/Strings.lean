import Starfall.Common.Buffer
import Starfall.ProofKit.Occurrences

/-! `Strings.cpp`: the end of a string, and the replacement of all occurrences of a string.  The
loop of `ReplaceAll` goes on behind what it put in, so that it sees the rest of the string once. -/

namespace Starfall.Strings

open ProofKit.Occurrences

def endsWith (a b : Str) : Bool :=
  if b.length > a.length then false
  else a.drop (a.length - b.length) == b

theorem endsWith_iff (a b : Str) : endsWith a b ↔ b <:+ a := by
  rw [endsWith]
  split
  · rename_i hlong
    refine iff_of_false Bool.false_ne_true fun hsuffix => ?_
    exact Nat.not_lt.mpr hsuffix.length_le hlong
  · rw [beq_iff_eq, List.suffix_iff_eq_drop, eq_comm]

/-- `str.replace(pos, len, to)` -/
def replace (str : Str) (pos len : Nat) (to_ : Str) : Str :=
  str.take pos ++ to_ ++ str.drop (pos + len)

/-- The loop from a position on.  The fuel bounds how often its condition is evaluated. -/
def replaceFrom : Nat → Str → Str → Str → Nat → Option Str
  | 0, _, _, _, _ => none
  | fuel + 1, str, from_, to_, start_pos =>
    match find str from_ start_pos with
    | some start_pos =>
      replaceFrom fuel (replace str start_pos from_.length to_) from_ to_ (start_pos + to_.length)
    | none => some str

def replaceAll (fuel : Nat) (str from_ to_ : Str) : Option Str :=
  replaceFrom fuel str from_ to_ 0

theorem replace_append (done front from_ back to_ : Str) :
    replace (done ++ (front ++ from_ ++ back)) (done.length + front.length) from_.length to_ =
      done ++ front ++ to_ ++ back := by
  have hlength : done.length + front.length = (done ++ front).length := by simp
  rw [replace, ← List.append_assoc, ← List.append_assoc, hlength, List.append_assoc _ from_,
    List.take_left, ← List.drop_drop, List.drop_left, List.drop_left]

/-- Behind what is done, the loop takes one more piece with every occurrence. -/
theorem replaceFrom_cut {from_ s : Str} {pieces : List Str} (h : Cut from_ s pieces) (to_ : Str)
    (done : Str) {fuel : Nat} (hfuel : pieces.length ≤ fuel) :
    replaceFrom fuel (done ++ s) from_ to_ done.length =
      some (done ++ to_.intercalate pieces) := by
  induction h generalizing done fuel with
  | @last s hnone =>
    obtain ⟨fuel, rfl⟩ := Nat.exists_eq_add_of_lt hfuel
    rw [replaceFrom, find_none hnone]
    simp [List.intercalate]
  | @cons front back pieces hfirst hcut ih =>
    rw [List.length_cons] at hfuel
    obtain ⟨fuel, rfl⟩ := Nat.exists_eq_add_of_lt hfuel
    have hdone : done.length + front.length + to_.length = (done ++ front ++ to_).length := by
      simp [Nat.add_assoc]
    rw [replaceFrom, find_first hfirst]
    simp only [replace_append, hdone]
    rw [ih (done ++ front ++ to_) (Nat.le_add_right _ _), intercalate_cons to_ hcut.ne_nil]
    simp only [List.append_assoc]

theorem replaceAll_cut {fuel : Nat} {from_ str : Str} {pieces : List Str}
    (h : Cut from_ str pieces) (to_ : Str) (hfuel : pieces.length ≤ fuel) :
    replaceAll fuel str from_ to_ = some (to_.intercalate pieces) :=
  replaceFrom_cut h to_ [] hfuel

/-- Once around the loop for each occurrence and once more to find that there is none left: fuel
for the whole string is enough. -/
theorem replaceAll_singleton (str : Str) (a : UInt8) (to_ : Str) {fuel : Nat}
    (hfuel : str.length < fuel) :
    replaceAll fuel str [a] to_ = some (str.flatMap fun b => if b = a then to_ else [b]) := by
  obtain ⟨pieces, hcut, hlength⟩ := exists_cut (List.cons_ne_nil a []) str
  rw [replaceAll_cut hcut to_ (Nat.le_trans hlength hfuel), hcut.intercalate_singleton]

/-- What the loop leaves: the pieces between the occurrences, with the new string between them. -/
theorem replaceAll_replaces (str : Str) {from_ : Str} (h : from_ ≠ []) (to_ : Str) :
    ∃ pieces result,
      Cut from_ str pieces ∧ (∀ pieces', Cut from_ str pieces' → pieces' = pieces) ∧
      from_.intercalate pieces = str ∧ (∀ piece ∈ pieces, ¬from_ <:+: piece) ∧
      result = to_.intercalate pieces ∧
      (∀ fuel, str.length < fuel → replaceAll fuel str from_ to_ = some result) ∧
      ∀ c, from_ = [c] → c ∉ to_ → ¬from_ <:+: result := by
  obtain ⟨pieces, hcut, hlength⟩ := exists_cut h str
  refine ⟨pieces, to_.intercalate pieces, hcut, ?_, hcut.intercalate, hcut.not_infix h, rfl, ?_,
    ?_⟩
  · intro pieces' hcut'
    exact hcut'.unique hcut
  · intro fuel hfuel
    exact replaceAll_cut hcut to_ (Nat.le_trans hlength hfuel)
  · rintro c rfl hc hinfix
    rw [hcut.intercalate_singleton, List.singleton_infix_iff, List.mem_flatMap] at hinfix
    obtain ⟨b, -, hb⟩ := hinfix
    split at hb
    · exact hc hb
    · rename_i hne
      exact hne (List.mem_singleton.mp hb).symm

theorem replaceAll_replaces_quotes :
    ([34] : Str) ≠ [] ∧
      replaceAll 4 [34, 65, 34] [34] [92, 34] = some [92, 34, 65, 92, 34] := by
  obtain ⟨pieces, result, hcut, -, -, -, rfl, hresult, -⟩ :=
    replaceAll_replaces [34, 65, 34] (List.cons_ne_nil 34 []) [92, 34]
  refine ⟨by decide, ?_⟩
  rw [hresult 4 (by decide), hcut.intercalate_singleton]
  rfl

/-- The text that `Database::Insert::TryConsole` makes of a value that is no string. -/
def messageString (fuel : Nat) (text : Str) : Option Str := do
  let text ← replaceAll fuel text [10] []
  replaceAll fuel text [9] []

theorem flatMap_remove (str : Str) (a : UInt8) :
    (str.flatMap fun b => if b = a then [] else [b]) = str.filter (· ≠ a) := by
  induction str with
  | nil => rfl
  | cons b str ih =>
    by_cases hb : b = a <;> simp [hb, ih]

/-- A message in the database has no line breaks and no tabulators, and nothing else is lost. -/
theorem messageString_eq (text : Str) {fuel : Nat} (hfuel : text.length < fuel) :
    messageString fuel text = some (text.filter fun b => b ≠ 10 ∧ b ≠ 9) := by
  have hlength : (text.filter (· ≠ 10)).length < fuel :=
    Nat.lt_of_le_of_lt (List.length_filter_le _ text) hfuel
  rw [messageString, replaceAll_singleton text 10 [] hfuel, flatMap_remove]
  simp only [Option.bind_eq_bind, Option.bind_some]
  rw [replaceAll_singleton _ 9 [] hlength, flatMap_remove, List.filter_filter]
  simp [and_comm]

end Starfall.Strings
