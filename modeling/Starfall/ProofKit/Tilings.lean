import Mathlib.Algebra.GroupWithZero.Nat
import Mathlib.Data.List.Basic

/-! Intervals of positions that follow one upon the other, as they stand in tables of the fields of
a text: each with its first and its last position.  The intervals of the lengths of some lists cut
their concatenation into these lists again. -/

namespace ProofKit.Tilings

/-- The positions from `first` to `last`. -/
structure Interval where
  first : Nat
  last : Nat
  deriving DecidableEq, Repr

namespace Interval

def Contains (i : Interval) (position : Nat) : Prop := i.first ≤ position ∧ position ≤ i.last

/-- The positions of the interval, in order. -/
def positions (i : Interval) : List Nat := List.range' i.first (i.last + 1 - i.first)

/-- What a list has at the positions of the interval. -/
def slice {α : Type*} (i : Interval) (xs : List α) : List α :=
  (xs.drop i.first).take (i.last + 1 - i.first)

end Interval

section Tiles

variable {ι : Type*} (interval : ι → Interval)

/-- The intervals of the entries hold the positions from `start` on up to the one before `stop`,
each one in one of them, and in order. -/
def Tiles : Nat → List ι → Nat → Prop
  | start, [], stop => start = stop
  | start, entry :: entries, stop =>
    (interval entry).first = start ∧ (interval entry).first ≤ (interval entry).last ∧
      Tiles ((interval entry).last + 1) entries stop

variable {interval} {entries : List ι} {start stop : Nat}

theorem tiles_map :
    Tiles id start (entries.map interval) stop ↔ Tiles interval start entries stop := by
  induction entries generalizing start with
  | nil => exact Iff.rfl
  | cons entry entries ih =>
    rw [List.map_cons, Tiles, Tiles, ih]
    exact Iff.rfl

theorem Tiles.le (h : Tiles interval start entries stop) : start ≤ stop := by
  induction entries generalizing start with
  | nil => exact Nat.le_of_eq h
  | cons entry entries ih =>
    obtain ⟨rfl, hle, hrest⟩ := h
    have := ih hrest
    omega

theorem Tiles.bounds (h : Tiles interval start entries stop) {entry : ι}
    (hentry : entry ∈ entries) : start ≤ (interval entry).first ∧ (interval entry).last < stop := by
  induction entries generalizing start with
  | nil => cases hentry
  | cons head entries ih =>
    obtain ⟨rfl, hle, hrest⟩ := h
    rcases List.mem_cons.mp hentry with rfl | hentry
    · exact ⟨Nat.le_refl _, hrest.le⟩
    · have := ih hrest hentry
      omega

theorem Tiles.exists_contains (h : Tiles interval start entries stop) {position : Nat}
    (hstart : start ≤ position) (hstop : position < stop) :
    ∃ entry ∈ entries, (interval entry).Contains position := by
  induction entries generalizing start with
  | nil =>
    obtain rfl : start = stop := h
    omega
  | cons head entries ih =>
    obtain ⟨rfl, hle, hrest⟩ := h
    by_cases hlast : position ≤ (interval head).last
    · exact ⟨head, List.mem_cons_self, hstart, hlast⟩
    · obtain ⟨entry, hentry, hcontains⟩ := ih hrest (by omega)
      exact ⟨entry, List.mem_cons_of_mem _ hentry, hcontains⟩

/-- No position is in the intervals of two entries. -/
theorem Tiles.unique (h : Tiles interval start entries stop) {a b : ι} {position : Nat}
    (ha : a ∈ entries) (hb : b ∈ entries) (hcontains : (interval a).Contains position)
    (hcontains' : (interval b).Contains position) : a = b := by
  induction entries generalizing start with
  | nil => cases ha
  | cons head entries ih =>
    obtain ⟨-, -, hrest⟩ := h
    have hapart : ∀ entry ∈ entries, (interval entry).Contains position →
        ¬(interval head).Contains position := by
      intro entry hentry hposition hhead
      have hbounds := hrest.bounds hentry
      have := hposition.1
      have := hhead.2
      omega
    rcases List.mem_cons.mp ha with rfl | hatail
    · rcases List.mem_cons.mp hb with rfl | hbtail
      · rfl
      · exact (hapart b hbtail hcontains' hcontains).elim
    · rcases List.mem_cons.mp hb with rfl | hbtail
      · exact (hapart a hatail hcontains hcontains').elim
      · exact ih hrest hatail hbtail

/-- The positions of the intervals are all positions. -/
theorem Tiles.positions_eq (h : Tiles interval start entries stop) :
    entries.flatMap (fun entry => (interval entry).positions) =
      List.range' start (stop - start) := by
  induction entries generalizing start with
  | nil =>
    obtain rfl : start = stop := h
    simp
  | cons entry entries ih =>
    obtain ⟨rfl, hle, hrest⟩ := h
    have hstop := hrest.le
    have hsize : stop - (interval entry).first =
        (interval entry).last + 1 - (interval entry).first +
          (stop - ((interval entry).last + 1)) := by omega
    have hnext : (interval entry).first + ((interval entry).last + 1 - (interval entry).first) =
        (interval entry).last + 1 := by omega
    rw [List.flatMap_cons, ih hrest, hsize, ← List.range'_append_1, hnext]
    rfl

end Tiles

/-- The intervals of the given lengths, from `start` on. -/
def intervals : Nat → List Nat → List Interval
  | _, [] => []
  | start, n :: ns => ⟨start, start + n - 1⟩ :: intervals (start + n) ns

theorem tiles_intervals {ns : List Nat} (h : ∀ n ∈ ns, 0 < n) (start : Nat) :
    Tiles id start (intervals start ns) (start + ns.sum) := by
  induction ns generalizing start with
  | nil => rfl
  | cons n ns ih =>
    rw [List.forall_mem_cons] at h
    have hlast : start + n - 1 + 1 = start + n := by omega
    refine ⟨rfl, by dsimp only [id]; omega, ?_⟩
    rw [List.sum_cons, ← Nat.add_assoc]
    dsimp only [id]
    rw [hlast]
    exact ih h.2 _

/-- The intervals of the lengths of some lists cut their concatenation into these lists. -/
theorem slices_flatten {α : Type*} {pieces : List (List α)} (h : ∀ piece ∈ pieces, piece ≠ [])
    (before : List α) :
    (intervals before.length (pieces.map List.length)).map
      (fun i => i.slice (before ++ pieces.flatten)) = pieces := by
  induction pieces generalizing before with
  | nil => rfl
  | cons piece pieces ih =>
    rw [List.forall_mem_cons] at h
    have hpositive := List.length_pos_iff.mpr h.1
    have hlength : before.length + piece.length - 1 + 1 - before.length = piece.length := by omega
    have hrest := ih h.2 (before ++ piece)
    rw [List.length_append, List.append_assoc] at hrest
    rw [List.map_cons, intervals, List.map_cons, List.flatten_cons, hrest]
    congr 1
    rw [Interval.slice, List.drop_left, hlength, List.take_left]

end ProofKit.Tilings
