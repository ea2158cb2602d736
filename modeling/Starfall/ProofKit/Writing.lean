import Mathlib.Data.List.Basic

/-! Writers that append to a sequence of limited size and fail when it is full.  `Writes` says what
a writer appends, wherever it starts.  It holds of a writer built in sequence or by a loop over a
list when it holds of the parts. -/

namespace ProofKit.Writing

/-- A sequence of at most `limit` elements. -/
@[ext] structure Store (limit : Nat) (β : Type*) where
  toList : List β
  fits : toList.length ≤ limit

/-- A writer returns the sequence after it, or fails. -/
abbrev Writer (limit : Nat) (β : Type*) := Store limit β → Option (Store limit β)

variable {limit : Nat} {β α : Type*}

namespace Store

def empty : Store limit β := ⟨[], Nat.zero_le limit⟩

def append (s : Store limit β) (elems : List β) : Option (Store limit β) :=
  if h : (s.toList ++ elems).length ≤ limit then some ⟨s.toList ++ elems, h⟩ else none

@[simp] theorem append_nil (s : Store limit β) : s.append [] = some s := by
  simp [append, s.fits]

theorem append_eq_some {s s' : Store limit β} {elems : List β} :
    s.append elems = some s' ↔ s'.toList = s.toList ++ elems := by
  unfold append
  constructor
  · intro h
    split at h
    · cases h
      rfl
    · cases h
  · intro h
    rw [dif_pos (h ▸ s'.fits), Option.some.injEq]
    exact Store.ext h.symm

theorem append_defined {s : Store limit β} {elems : List β}
    (h : (s.toList ++ elems).length ≤ limit) :
    ∃ s', s.append elems = some s' ∧ s'.toList = s.toList ++ elems :=
  ⟨⟨_, h⟩, by rw [append, dif_pos h], rfl⟩

theorem append_append (s : Store limit β) (first second : List β) :
    (s.append first).bind (fun t => t.append second) = s.append (first ++ second) := by
  by_cases h : (s.toList ++ first).length ≤ limit
  · rw [append, dif_pos h, Option.bind_some]
    simp only [append, List.append_assoc]
  · have hboth : ¬(s.toList ++ (first ++ second)).length ≤ limit := by
      simp only [List.length_append] at h ⊢
      omega
    rw [append, dif_neg h, append, dif_neg hboth, Option.bind_none]

/-- The last element, and what is before it. -/
def pop (s : Store limit β) : Option (β × Store limit β) :=
  s.toList.getLast?.map fun b => (b, ⟨s.toList.dropLast, by
    rw [List.length_dropLast]
    exact Nat.le_trans (Nat.sub_le _ _) s.fits⟩)

def set (s : Store limit β) (i : Nat) (b : β) : Store limit β :=
  ⟨s.toList.set i b, by rw [List.length_set]; exact s.fits⟩

/-- What was appended last is popped first. -/
theorem pop_append {s t : Store limit β} (elems : List β) (b : β)
    (h : s.append (elems ++ [b]) = some t) :
    ∃ u, t.pop = some (b, u) ∧ s.append elems = some u := by
  have hlist : t.toList = s.toList ++ elems ++ [b] := by
    rw [List.append_assoc]
    exact append_eq_some.mp h
  refine ⟨⟨t.toList.dropLast, ?_⟩, ?_, append_eq_some.mpr ?_⟩
  · rw [List.length_dropLast]
    exact Nat.le_trans (Nat.sub_le _ _) t.fits
  · simp [pop, hlist]
  · simp [hlist]

end Store

def push (b : β) : Writer limit β := fun s => s.append [b]

/-- Writes the elements of a list one after another. -/
def forEach (w : α → Writer limit β) : List α → Writer limit β
  | [] => some
  | a :: as => w a >=> forEach w as

/-- `w` appends `elems`, wherever it starts. -/
def Writes (w : Writer limit β) (elems : List β) : Prop := ∀ s, w s = s.append elems

namespace Writes

theorem nothing : Writes (some : Writer limit β) [] := fun s => s.append_nil.symm

theorem push (b : β) : Writes (Writing.push b : Writer limit β) [b] := fun _ => rfl

theorem seq {v w : Writer limit β} {first second : List β} (h1 : Writes v first)
    (h2 : Writes w second) : Writes (v >=> w) (first ++ second) := by
  intro s
  rw [← s.append_append, ← h1 s]
  show (v s).bind w = (v s).bind _
  congr 1
  exact funext h2

theorem forEach {w : α → Writer limit β} {enc : α → List β} {as : List α}
    (h : ∀ a ∈ as, Writes (w a) (enc a)) : Writes (Writing.forEach w as) (as.flatMap enc) := by
  induction as with
  | nil => exact nothing
  | cons a as ih =>
    exact (h a List.mem_cons_self).seq (ih fun b hb => h b (List.mem_cons_of_mem _ hb))

theorem pushAll (elems : List β) :
    Writes (Writing.forEach Writing.push elems : Writer limit β) elems := by
  have each : ∀ b ∈ elems, Writes (Writing.push b : Writer limit β) [b] := fun b _ => push b
  have h := forEach each
  rwa [List.flatMap_singleton'] at h

/-- What a writer leaves behind when it starts from nothing. -/
theorem of_empty {w : Writer limit β} {elems : List β} (h : Writes w elems) {s : Store limit β}
    (hw : w .empty = some s) : s.toList = elems := by
  rw [h] at hw
  exact Store.append_eq_some.mp hw

end Writes

end ProofKit.Writing
