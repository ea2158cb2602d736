import Mathlib.Data.List.Induction
import Mathlib.Data.Set.Basic

/-! Batches of changes to a set, each with elements to add and elements to remove.  Batches that are
applied one after another leave an element that some batch adds, and that neither it nor a later one
removes.  Merged into one batch they leave the elements that some batch adds and none removes. -/

namespace ProofKit.Batches

/-- The elements that a batch adds, and those that it removes then. -/
structure Batch (α : Type*) where
  adds : List α
  removes : List α

variable {α : Type*}

def Batch.apply (b : Batch α) (set : Set α) : Set α :=
  {a | (a ∈ set ∨ a ∈ b.adds) ∧ a ∉ b.removes}

/-- What the batches leave of the empty set, applied in order. -/
def applied (bs : List (Batch α)) : Set α := bs.foldl (fun set b => b.apply set) ∅

def added (bs : List (Batch α)) : List α := bs.flatMap Batch.adds

def removed (bs : List (Batch α)) : List α := bs.flatMap Batch.removes

/-- What one batch with all the elements leaves of the empty set. -/
def merged (bs : List (Batch α)) : Set α := Batch.apply ⟨added bs, removed bs⟩ ∅

/-- An element that one batch removes and a later one adds is removed again, by that batch or one
behind it. -/
def NoneReturns (bs : List (Batch α)) : Prop :=
  ∀ before b after, bs = before ++ b :: after → ∀ a ∈ removed before, a ∈ b.adds →
    a ∈ b.removes ∨ a ∈ removed after

theorem mem_merged {bs : List (Batch α)} {a : α} : a ∈ merged bs ↔ a ∈ added bs ∧ a ∉ removed bs :=
  and_congr_left fun _ => or_iff_right id

theorem applied_append (bs : List (Batch α)) (b : Batch α) :
    applied (bs ++ [b]) = b.apply (applied bs) := by
  rw [applied, List.foldl_append]
  rfl

/-- An element is left when a batch adds it, and neither that one nor a later one removes it. -/
theorem mem_applied {bs : List (Batch α)} {a : α} : a ∈ applied bs ↔
    ∃ before b after, bs = before ++ b :: after ∧ a ∈ b.adds ∧ a ∉ b.removes ∧
      a ∉ removed after := by
  induction bs using List.reverseRecOn with
  | nil => simp [applied]
  | append_singleton bs last ih =>
    rw [applied_append]
    constructor
    · rintro ⟨hmem | hadds, hremoves⟩
      · obtain ⟨before, b, after, rfl, hadds, hb, hafter⟩ := ih.mp hmem
        refine ⟨before, b, after ++ [last], by simp, hadds, hb, ?_⟩
        simp only [removed, List.flatMap_append, List.flatMap_singleton, List.mem_append, not_or]
        exact ⟨hafter, hremoves⟩
      · exact ⟨bs, last, [], rfl, hadds, hremoves, List.not_mem_nil⟩
    · rintro ⟨before, b, after, hsplit, hadds, hb, hafter⟩
      cases after using List.reverseRecOn with
      | nil =>
        obtain ⟨rfl, hlast⟩ := List.append_inj' hsplit rfl
        cases hlast
        exact ⟨.inr hadds, hb⟩
      | append_singleton after last' =>
        rw [← List.cons_append, ← List.append_assoc] at hsplit
        obtain ⟨rfl, hlast⟩ := List.append_inj' hsplit rfl
        cases hlast
        simp only [removed, List.flatMap_append, List.flatMap_singleton, List.mem_append,
          not_or] at hafter
        exact ⟨.inl (ih.mpr ⟨before, b, after, rfl, hadds, hb, hafter.1⟩), hafter.2⟩

/-- Merging the batches changes nothing exactly when no element that was removed returns. -/
theorem merged_eq_applied_iff (bs : List (Batch α)) : merged bs = applied bs ↔ NoneReturns bs := by
  constructor
  · rintro h before b after rfl a hbefore hadds
    by_contra hleft
    rw [not_or] at hleft
    have hmem : a ∈ applied (before ++ b :: after) :=
      mem_applied.mpr ⟨before, b, after, rfl, hadds, hleft⟩
    rw [← h, mem_merged] at hmem
    apply hmem.2
    rw [removed, List.flatMap_append]
    exact List.mem_append_left _ hbefore
  · intro h
    ext a
    rw [mem_merged, mem_applied]
    constructor
    · rintro ⟨hadded, hremoved⟩
      obtain ⟨b, hb, hadds⟩ := List.mem_flatMap.mp hadded
      obtain ⟨before, after, rfl⟩ := List.append_of_mem hb
      simp only [removed, List.flatMap_append, List.flatMap_cons, List.mem_append,
        not_or] at hremoved
      exact ⟨before, b, after, rfl, hadds, hremoved.2⟩
    · rintro ⟨before, b, after, rfl, hadds, hb, hafter⟩
      refine ⟨List.mem_flatMap.mpr ⟨b, by simp, hadds⟩, ?_⟩
      simp only [removed, List.flatMap_append, List.flatMap_cons, List.mem_append, not_or]
      refine ⟨fun hbefore => ?_, hb, hafter⟩
      rcases h before b after rfl a hbefore hadds with hreturn | hreturn
      · exact hb hreturn
      · exact hafter hreturn

end ProofKit.Batches
