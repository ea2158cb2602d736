import Mathlib.Data.List.Basic

/-! Forests of nodes with a first child and a next sibling, and of leaves.  A walk reaches the
leaves in their order.  What it knows at a leaf is either what stands above the leaf or all that
the walk passed on its way. -/

namespace ProofKit.Forests

variable {α β : Type*}

/-- What a reference to a node leads to: the node itself, its children and its next siblings. -/
inductive Forest (α β : Type*)
  | nil
  | node (label : α) (children next : Forest α β)
  | leaf (value : β) (next : Forest α β)

/-- A leaf with the labels of the nodes that it is in, the innermost first, and the labels of these
nodes and of the siblings before them and before the leaf, the latest first. -/
structure Leaf (α β : Type*) where
  above : List α
  passed : List α
  value : β

namespace Forest

/-- The leaves in their order. -/
def leaves : Forest α β → List α → List α → List (Leaf α β)
  | nil, _, _ => []
  | node a children next, above, passed =>
    leaves children (a :: above) (a :: passed) ++ leaves next above (a :: passed)
  | leaf b next, above, passed => ⟨above, passed, b⟩ :: leaves next above passed

/-- The leaves that a walk reaches which does not go on to the siblings of a leaf. -/
def reached : Forest α β → List α → List α → List (Leaf α β)
  | nil, _, _ => []
  | node a children next, above, passed =>
    reached children (a :: above) (a :: passed) ++ reached next above (a :: passed)
  | leaf b _, above, passed => [⟨above, passed, b⟩]

def NoLeaf : Forest α β → Prop
  | nil => True
  | node _ children next => children.NoLeaf ∧ next.NoLeaf
  | leaf _ _ => False

/-- No sibling behind a leaf is a leaf or has one in it. -/
def LeavesLast : Forest α β → Prop
  | nil => True
  | node _ children next => children.LeavesLast ∧ next.LeavesLast
  | leaf _ next => next.NoLeaf

instance decidableNoLeaf : (f : Forest α β) → Decidable f.NoLeaf
  | nil => isTrue trivial
  | node _ children next =>
    have := decidableNoLeaf children
    have := decidableNoLeaf next
    inferInstanceAs (Decidable (children.NoLeaf ∧ next.NoLeaf))
  | leaf _ _ => isFalse not_false

instance decidableLeavesLast : (f : Forest α β) → Decidable f.LeavesLast
  | nil => isTrue trivial
  | node _ children next =>
    have := decidableLeavesLast children
    have := decidableLeavesLast next
    inferInstanceAs (Decidable (children.LeavesLast ∧ next.LeavesLast))
  | leaf _ next => inferInstanceAs (Decidable next.NoLeaf)

theorem leaves_eq_nil_iff (f : Forest α β) (above passed : List α) :
    f.leaves above passed = [] ↔ f.NoLeaf := by
  induction f generalizing above passed with
  | nil => simp [leaves, NoLeaf]
  | node a children next ihc ihn => rw [leaves, NoLeaf, List.append_eq_nil_iff, ihc, ihn]
  | leaf b next ih => simp [leaves, NoLeaf]

theorem length_reached_le (f : Forest α β) (above passed : List α) :
    (f.reached above passed).length ≤ (f.leaves above passed).length := by
  induction f generalizing above passed with
  | nil => exact Nat.le_refl _
  | node a children next ihc ihn =>
    rw [reached, leaves, List.length_append, List.length_append]
    exact Nat.add_le_add (ihc _ _) (ihn _ _)
  | leaf b next ih => simp [reached, leaves]

theorem LeavesLast.reached_eq {f : Forest α β} (h : f.LeavesLast) (above passed : List α) :
    f.reached above passed = f.leaves above passed := by
  induction f generalizing above passed with
  | nil => rfl
  | node a children next ihc ihn => rw [reached, leaves, ihc h.1, ihn h.2]
  | leaf b next ih => rw [reached, leaves, (leaves_eq_nil_iff next above passed).mpr h]

/-- The walk reaches as many leaves as there are only where it reaches all of them. -/
theorem leavesLast_of_length {f : Forest α β} (above passed : List α)
    (h : (f.leaves above passed).length ≤ (f.reached above passed).length) : f.LeavesLast := by
  induction f generalizing above passed with
  | nil => trivial
  | node a children next ihc ihn =>
    rw [reached, leaves, List.length_append, List.length_append] at h
    have hchildren := length_reached_le children (a :: above) (a :: passed)
    have hnext := length_reached_le next above (a :: passed)
    exact ⟨ihc (a :: above) (a :: passed) (by omega), ihn above (a :: passed) (by omega)⟩
  | leaf b next ih =>
    rw [reached, leaves, List.length_cons, List.length_singleton] at h
    exact (leaves_eq_nil_iff next above passed).mp (List.length_eq_zero_iff.mp (by omega))

end Forest

/-- What is done of a list when nothing is done behind the first element without `p`. -/
def upTo (p : α → Bool) : List α → List α
  | [] => []
  | a :: as => if p a then a :: upTo p as else [a]

theorem upTo_append_of_all {p : α → Bool} {as : List α} (h : as.all p) (bs : List α) :
    upTo p (as ++ bs) = as ++ upTo p bs := by
  induction as with
  | nil => rfl
  | cons a as ih =>
    rw [List.all_cons, Bool.and_eq_true] at h
    rw [List.cons_append, upTo, if_pos h.1, ih h.2, List.cons_append]

theorem upTo_append_of_not_all {p : α → Bool} {as : List α} (h : ¬as.all p) (bs : List α) :
    upTo p (as ++ bs) = upTo p as := by
  induction as with
  | nil => exact absurd rfl h
  | cons a as ih =>
    rw [List.cons_append, upTo, upTo]
    split
    · rename_i ha
      rw [ih fun hall => h (by rw [List.all_cons, ha, hall]; rfl)]
    · rfl

theorem upTo_of_all {p : α → Bool} {as : List α} (h : as.all p) : upTo p as = as := by
  have happend := upTo_append_of_all h []
  rwa [List.append_nil, upTo, List.append_nil] at happend

theorem upTo_prefix (p : α → Bool) (as : List α) : upTo p as <+: as := by
  induction as with
  | nil => exact List.prefix_refl []
  | cons a as ih =>
    rw [upTo]
    split
    · exact List.cons_prefix_cons.mpr ⟨rfl, ih⟩
    · exact List.cons_prefix_cons.mpr ⟨rfl, List.nil_prefix⟩

/-- All of a list is done where `p` holds of all its elements but the last. -/
theorem upTo_eq_iff {p : α → Bool} {as : List α} : upTo p as = as ↔ ∀ a ∈ as.dropLast, p a := by
  induction as with
  | nil => simp [upTo]
  | cons a as ih =>
    cases as with
    | nil => simp [upTo]
    | cons b bs =>
      rw [upTo, List.dropLast_cons_cons, List.forall_mem_cons, ← ih]
      split
      · rename_i ha
        simp [ha]
      · rename_i ha
        simp [ha]

end ProofKit.Forests
