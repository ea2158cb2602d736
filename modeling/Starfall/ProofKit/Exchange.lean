import Mathlib.Data.Set.Basic

/-! Copies of a set that are brought up to date by exchanges.  The copy names its elements, and the
source answers with what to remove and what to add.  An exchange that has something to remove adds
nothing, so one exchange need not suffice, but two do.  A system whose rounds have the effect of an
exchange on what it shows is up to date after two rounds. -/

namespace ProofKit.Exchange

section Rounds

variable {S : Type*} {f : S → Option S}

def rounds (f : S → Option S) : Nat → S → Option S
  | 0, s => some s
  | n + 1, s => (f s).bind (rounds f n)

theorem rounds_succ {s s' : S} (h : f s = some s') (n : Nat) :
    rounds f (n + 1) s = rounds f n s' := by
  rw [rounds, h, Option.bind_some]

theorem rounds_fixed {s : S} (h : f s = some s) (n : Nat) : rounds f n s = some s := by
  induction n with
  | zero => rfl
  | succ n ih => rw [rounds_succ h, ih]

end Rounds

variable {α : Type*} {source copy : Set α}

/-- The copy after an exchange keeps what the source has, and gets the rest of it if nothing was to
be removed. -/
def exchange (source copy : Set α) : Set α := {a | a ∈ source ∧ (a ∈ copy ∨ copy ⊆ source)}

theorem exchange_subset : exchange source copy ⊆ source := fun _ h => h.1

theorem exchange_of_subset (h : copy ⊆ source) : exchange source copy = source := by
  apply Set.Subset.antisymm exchange_subset
  intro a ha
  exact ⟨ha, .inr h⟩

theorem exchange_exchange (source copy : Set α) :
    exchange source (exchange source copy) = source := by
  apply exchange_of_subset
  exact exchange_subset

/-- A round from a good state leads to a good state, and is an exchange for the view. -/
def Refines {S : Type*} (f : S → Option S) (Good : S → Prop) (view : S → Set α)
    (source : Set α) : Prop :=
  ∀ s, Good s → ∃ s', f s = some s' ∧ Good s' ∧ view s' = exchange source (view s)

/-- After two rounds the view is the source. -/
theorem Refines.two_rounds {S : Type*} {f : S → Option S} {Good : S → Prop} {view : S → Set α}
    (h : Refines f Good view source) {s : S} (good : Good s) :
    ∃ s1 s2, Good s1 ∧ f s1 = some s2 ∧ rounds f 2 s = some s2 ∧ Good s2 ∧ view s2 = source := by
  obtain ⟨s1, hs1, good1, hview1⟩ := h s good
  obtain ⟨s2, hs2, good2, hview2⟩ := h s1 good1
  refine ⟨s1, s2, good1, hs2, ?_, good2, ?_⟩
  · rw [rounds_succ hs1, rounds_succ hs2]
    rfl
  · rw [hview2, hview1]
    exact exchange_exchange source (view s)

end ProofKit.Exchange
