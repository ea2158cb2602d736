import Mathlib.Data.List.Infix

/-! Occurrences of a pattern in a list.  A cut takes the occurrences out that are found from the
front on, each behind the end of the one before, and leaves the pieces between them.  Putting
something else between the pieces replaces these occurrences and nothing else. -/

namespace ProofKit.Occurrences

variable {α : Type*} {pat : List α}

/-- No occurrence begins before the one between `front` and `back`. -/
def First (pat front back : List α) : Prop :=
  ∀ i < front.length, ¬pat <+: (front ++ pat ++ back).drop i

/-- The pieces of a list between the occurrences of a pattern. -/
inductive Cut (pat : List α) : List α → List (List α) → Prop
  | last {s : List α} : ¬pat <:+: s → Cut pat s [s]
  | cons {front back : List α} {pieces : List (List α)} :
      First pat front back → Cut pat back pieces →
      Cut pat (front ++ pat ++ back) (front :: pieces)

theorem isInfix_iff_drop {s : List α} : pat <:+: s ↔ ∃ i ≤ s.length, pat <+: s.drop i := by
  rw [List.infix_iff_prefix_suffix]
  constructor
  · rintro ⟨t, hstart, ⟨front, rfl⟩⟩
    exact ⟨front.length, by simp, by simpa using hstart⟩
  · rintro ⟨i, -, hstart⟩
    exact ⟨s.drop i, hstart, List.drop_suffix i s⟩

theorem Cut.ne_nil {s : List α} {pieces : List (List α)} (h : Cut pat s pieces) :
    pieces ≠ [] := by
  cases h <;> simp

theorem intercalate_cons {front : List α} {pieces : List (List α)} (sep : List α)
    (h : pieces ≠ []) :
    sep.intercalate (front :: pieces) = front ++ sep ++ sep.intercalate pieces := by
  obtain ⟨piece, pieces, rfl⟩ := List.exists_cons_of_ne_nil h
  simp [List.intercalate]

/-- The pattern between the pieces makes the list again. -/
theorem Cut.intercalate {s : List α} {pieces : List (List α)} (h : Cut pat s pieces) :
    pat.intercalate pieces = s := by
  induction h with
  | last => simp [List.intercalate]
  | cons _ hcut ih => rw [intercalate_cons pat hcut.ne_nil, ih]

theorem First.not_infix {front back : List α} (h : First pat front back) (hpat : pat ≠ []) :
    ¬pat <:+: front := by
  intro hinfix
  obtain ⟨i, hi, hstart⟩ := isInfix_iff_drop.mp hinfix
  have hlt : i < front.length := by
    apply Nat.lt_of_le_of_ne hi
    rintro rfl
    rw [List.drop_length] at hstart
    exact hpat (List.prefix_nil.mp hstart)
  apply h i hlt
  rw [List.append_assoc, List.drop_append_of_le_length hi]
  exact hstart.trans (List.prefix_append _ _)

/-- The pattern is in none of the pieces. -/
theorem Cut.not_infix {s : List α} {pieces : List (List α)} (h : Cut pat s pieces)
    (hpat : pat ≠ []) : ∀ piece ∈ pieces, ¬pat <:+: piece := by
  induction h with
  | last hnone => simpa using hnone
  | cons hfirst _ ih => exact List.forall_mem_cons.mpr ⟨hfirst.not_infix hpat, ih⟩

/-- Where two first occurrences stand in one list they are the same. -/
theorem First.unique {front back front' back' : List α} (h : First pat front back)
    (h' : First pat front' back') (heq : front ++ pat ++ back = front' ++ pat ++ back') :
    front = front' ∧ back = back' := by
  have hstands : ∀ front back : List α, pat <+: (front ++ pat ++ back).drop front.length := by
    intro front back
    rw [List.append_assoc, List.drop_left]
    exact List.prefix_append _ _
  have hlength : front.length = front'.length := by
    rcases Nat.lt_trichotomy front.length front'.length with hlt | hsame | hgt
    · exact absurd (heq ▸ hstands front back) (h' _ hlt)
    · exact hsame
    · exact absurd (heq ▸ hstands front' back') (h _ hgt)
  rw [List.append_assoc, List.append_assoc] at heq
  obtain ⟨hfront, hrest⟩ := List.append_inj heq hlength
  exact ⟨hfront, List.append_cancel_left hrest⟩

/-- A list is cut in one way only. -/
theorem Cut.unique {s : List α} {pieces pieces' : List (List α)} (h : Cut pat s pieces)
    (h' : Cut pat s pieces') : pieces = pieces' := by
  induction h generalizing pieces' with
  | @last s hnone =>
    cases h' with
    | last => rfl
    | @cons front back =>
      exact absurd ⟨front, back, rfl⟩ hnone
  | @cons front back pieces hfirst _ ih =>
    generalize hs : front ++ pat ++ back = s at h'
    cases h' with
    | last hnone => exact absurd ⟨front, back, hs⟩ hnone
    | cons hfirst' hcut' =>
      obtain ⟨rfl, rfl⟩ := hfirst.unique hfirst' hs
      rw [ih hcut']

/-- What replaces a pattern of one element stands for each occurrence of that element. -/
theorem Cut.intercalate_singleton [DecidableEq α] {a : α} {s : List α} {pieces : List (List α)}
    (h : Cut [a] s pieces) (sep : List α) :
    sep.intercalate pieces = s.flatMap fun b => if b = a then sep else [b] := by
  have hpiece : ∀ piece, ¬[a] <:+: piece →
      piece.flatMap (fun b => if b = a then sep else [b]) = piece := by
    intro piece hpiece
    rw [List.singleton_infix_iff] at hpiece
    induction piece with
    | nil => rfl
    | cons b piece ih =>
      rw [List.mem_cons, not_or] at hpiece
      rw [List.flatMap_cons, if_neg (Ne.symm hpiece.1), ih hpiece.2]
      rfl
  induction h with
  | last hnone =>
    rw [hpiece _ hnone]
    simp [List.intercalate]
  | cons hfirst hcut ih =>
    rw [intercalate_cons sep hcut.ne_nil, ih, List.flatMap_append, List.flatMap_append,
      hpiece _ (hfirst.not_infix (List.cons_ne_nil a []))]
    simp

section Find

variable [DecidableEq α]

/-- Where the pattern stands first from a position on. -/
def find (s pat : List α) (pos : Nat) : Option Nat :=
  (List.range' pos (s.length + 1 - pos)).find? fun i => pat.isPrefixOf (s.drop i)

theorem find_eq_some_iff {s : List α} {pos i : Nat} :
    find s pat pos = some i ↔ pos ≤ i ∧ i ≤ s.length ∧ pat <+: s.drop i ∧
      ∀ j, pos ≤ j → j < i → ¬pat <+: s.drop j := by
  rw [find, List.find?_range'_eq_some, List.mem_range'_1]
  simp only [List.isPrefixOf_iff_prefix, Bool.not_eq_true', ← Bool.not_eq_true]
  constructor
  · rintro ⟨hstart, ⟨hle, hlt⟩, hfirst⟩
    exact ⟨hle, by omega, hstart, hfirst⟩
  · rintro ⟨hle, hlength, hstart, hfirst⟩
    exact ⟨hstart, ⟨hle, by omega⟩, hfirst⟩

theorem find_eq_none_iff {s : List α} {pos : Nat} :
    find s pat pos = none ↔ ∀ i, pos ≤ i → i ≤ s.length → ¬pat <+: s.drop i := by
  rw [find, List.find?_range'_eq_none]
  simp only [List.isPrefixOf_iff_prefix, Bool.not_eq_true', ← Bool.not_eq_true]
  constructor
  · intro h i hle hlength
    exact h i hle (by omega)
  · intro h i hle hlt
    exact h i hle (by omega)

/-- A search behind what is done finds the first occurrence in what is left. -/
theorem find_first {front back : List α} (h : First pat front back) (done : List α) :
    find (done ++ (front ++ pat ++ back)) pat done.length =
      some (done.length + front.length) := by
  rw [find_eq_some_iff]
  refine ⟨Nat.le_add_right _ _, by simp, ?_, ?_⟩
  · rw [List.drop_append, Nat.add_sub_cancel_left, List.drop_eq_nil_of_le (by simp),
      List.nil_append, List.append_assoc, List.drop_left]
    exact List.prefix_append _ _
  · intro j hle hlt hstart
    rw [List.drop_append, List.drop_eq_nil_of_le hle, List.nil_append] at hstart
    exact h (j - done.length) (by omega) hstart

theorem find_none {s : List α} (h : ¬pat <:+: s) (done : List α) :
    find (done ++ s) pat done.length = none := by
  rw [find_eq_none_iff]
  intro i hle hlength hstart
  rw [List.drop_append, List.drop_eq_nil_of_le hle, List.nil_append] at hstart
  exact h (hstart.isInfix.trans (List.drop_suffix _ s).isInfix)

/-- A pattern that is not empty cuts every list. -/
theorem exists_cut (hpat : pat ≠ []) (s : List α) :
    ∃ pieces, Cut pat s pieces ∧ pieces.length ≤ s.length + 1 := by
  induction hn : s.length using Nat.strong_induction_on generalizing s with
  | _ n ih =>
    cases hfind : find s pat 0 with
    | none =>
      refine ⟨[s], .last ?_, by simp⟩
      rw [isInfix_iff_drop]
      rintro ⟨i, hi, hstart⟩
      exact find_eq_none_iff.mp hfind i (Nat.zero_le i) hi hstart
    | some i =>
      obtain ⟨-, hi, ⟨back, hback⟩, hfirst⟩ := find_eq_some_iff.mp hfind
      have hs : s.take i ++ pat ++ back = s := by
        rw [List.append_assoc, hback, List.take_append_drop]
      have hlength := congrArg List.length hs
      have hpos := List.length_pos_iff.mpr hpat
      simp only [List.length_append] at hlength
      obtain ⟨pieces, hcut, hpieces⟩ := ih back.length (by omega) back rfl
      have hlead : First pat (s.take i) back := by
        intro j hj
        rw [hs]
        exact hfirst j (Nat.zero_le j) (Nat.lt_of_lt_of_le hj (List.length_take_le i s))
      have hcons := Cut.cons hlead hcut
      rw [hs] at hcons
      exact ⟨s.take i :: pieces, hcons, by rw [List.length_cons]; omega⟩

end Find

end ProofKit.Occurrences
