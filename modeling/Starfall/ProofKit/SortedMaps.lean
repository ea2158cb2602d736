import Mathlib.Data.List.Basic

/-! Maps as lists of entries in the order of their keys.  Entries that are inserted in that order
make up the list that they come from. -/

namespace ProofKit.SortedMaps

variable {κ α β : Type} [Ord κ]

/-- Each key once, and each before the greater ones. -/
def Sorted (entries : List (κ × α)) : Prop :=
  entries.Pairwise fun e e' => compare e.1 e'.1 = .lt

instance (entries : List (κ × α)) : Decidable (Sorted entries) :=
  inferInstanceAs (Decidable (entries.Pairwise _))

/-- An entry that has the key already stays as it is. -/
def insert : List (κ × α) → κ → α → List (κ × α)
  | [], k, a => [(k, a)]
  | e :: entries, k, a =>
    match compare k e.1 with
    | .lt => (k, a) :: e :: entries
    | .eq => e :: entries
    | .gt => e :: insert entries k a

/-- An entry that has the key already is replaced. -/
def assign : List (κ × α) → κ → α → List (κ × α)
  | [], k, a => [(k, a)]
  | e :: entries, k, a =>
    match compare k e.1 with
    | .lt => (k, a) :: e :: entries
    | .eq => (k, a) :: entries
    | .gt => e :: assign entries k a

/-- What becomes of a map when entries are inserted one after the other. -/
def insertAll (map entries : List (κ × α)) : List (κ × α) :=
  entries.foldl (fun map e => insert map e.1 e.2) map

def find (map : List (κ × α)) (k : κ) : Option α :=
  (map.find? fun e => compare k e.1 == .eq).map Prod.snd

@[simp] theorem insertAll_nil (map : List (κ × α)) : insertAll map [] = map := rfl

@[simp] theorem insertAll_cons (map : List (κ × α)) (e : κ × α) (entries : List (κ × α)) :
    insertAll map (e :: entries) = insertAll (insert map e.1 e.2) entries := rfl

theorem mem_of_mem_insert {map : List (κ × α)} {k : κ} {a : α} {e : κ × α}
    (h : e ∈ insert map k a) : e = (k, a) ∨ e ∈ map := by
  induction map with
  | nil => exact .inl (List.mem_singleton.mp h)
  | cons e' map ih =>
    rw [insert] at h
    split at h
    · exact List.mem_cons.mp h
    · exact .inr h
    · rcases List.mem_cons.mp h with rfl | h
      · exact .inr List.mem_cons_self
      · exact (ih h).imp_right (List.mem_cons_of_mem _)

theorem mem_of_mem_insertAll {map entries : List (κ × α)} {e : κ × α}
    (h : e ∈ insertAll map entries) : e ∈ map ∨ e ∈ entries := by
  induction entries generalizing map with
  | nil => exact .inl h
  | cons e' entries ih =>
    rcases ih h with h | h
    · rcases mem_of_mem_insert h with rfl | h
      · exact .inr List.mem_cons_self
      · exact .inl h
    · exact .inr (List.mem_cons_of_mem _ h)

theorem mem_of_mem_assign {map : List (κ × α)} {k : κ} {a : α} {e : κ × α}
    (h : e ∈ assign map k a) : e = (k, a) ∨ e ∈ map := by
  induction map with
  | nil => exact .inl (List.mem_singleton.mp h)
  | cons e' map ih =>
    rw [assign] at h
    split at h
    · exact List.mem_cons.mp h
    · exact (List.mem_cons.mp h).imp_right (List.mem_cons_of_mem _)
    · rcases List.mem_cons.mp h with rfl | h
      · exact .inr List.mem_cons_self
      · exact (ih h).imp_right (List.mem_cons_of_mem _)

theorem mem_of_mem_assignAll {map entries : List (κ × α)} {e : κ × α}
    (h : e ∈ entries.foldl (fun map e => assign map e.1 e.2) map) : e ∈ map ∨ e ∈ entries := by
  induction entries generalizing map with
  | nil => exact .inl h
  | cons e' entries ih =>
    rcases ih h with h | h
    · rcases mem_of_mem_assign h with rfl | h
      · exact .inr List.mem_cons_self
      · exact .inl h
    · exact .inr (List.mem_cons_of_mem _ h)

theorem mem_of_find {map : List (κ × α)} {k : κ} {a : α} (h : find map k = some a) :
    ∃ e ∈ map, e.2 = a := by
  obtain ⟨e, he, rfl⟩ := Option.map_eq_some_iff.mp h
  exact ⟨e, List.mem_of_find?_eq_some he, rfl⟩

theorem insert_of_lt {map : List (κ × α)} {k : κ} (a : α) [Std.OrientedOrd κ]
    (h : ∀ e ∈ map, compare e.1 k = .lt) : insert map k a = map ++ [(k, a)] := by
  induction map with
  | nil => rfl
  | cons e map ih =>
    have hgt : compare k e.1 = .gt := Std.OrientedCmp.gt_iff_lt.mpr (h e List.mem_cons_self)
    rw [insert, hgt]
    dsimp only
    rw [ih fun e' he' => h e' (List.mem_cons_of_mem _ he'), List.cons_append]

/-- Sorted entries come out of insertion as they went in. -/
theorem insertAll_append [Std.OrientedOrd κ] {map entries : List (κ × α)}
    (h : Sorted (map ++ entries)) : insertAll map entries = map ++ entries := by
  induction entries generalizing map with
  | nil => simp
  | cons e entries ih =>
    have hfront : ∀ e' ∈ map, compare e'.1 e.1 = .lt := fun e' he' =>
      (List.pairwise_append.mp h).2.2 e' he' e List.mem_cons_self
    rw [List.append_cons] at h
    rw [insertAll_cons, insert_of_lt e.2 hfront, ih h, ← List.append_cons]

theorem insertAll_sorted [Std.OrientedOrd κ] {entries : List (κ × α)} (h : Sorted entries) :
    insertAll [] entries = entries :=
  insertAll_append (show Sorted ([] ++ entries) from h)

theorem sorted_insert [Std.TransOrd κ] {map : List (κ × α)} (h : Sorted map) (k : κ) (a : α) :
    Sorted (insert map k a) := by
  induction map with
  | nil => exact List.pairwise_singleton _ _
  | cons e map ih =>
    obtain ⟨hfront, hmap⟩ := List.pairwise_cons.mp h
    rw [insert]
    split
    · rename_i hlt
      refine List.pairwise_cons.mpr ⟨fun e' he' => ?_, h⟩
      rcases List.mem_cons.mp he' with rfl | he'
      · exact hlt
      · exact Std.TransCmp.lt_trans hlt (hfront e' he')
    · exact h
    · rename_i hgt
      refine List.pairwise_cons.mpr ⟨fun e' he' => ?_, ih hmap⟩
      rcases mem_of_mem_insert he' with rfl | he'
      · exact Std.OrientedCmp.gt_iff_lt.mp hgt
      · exact hfront e' he'

theorem sorted_insertAll [Std.TransOrd κ] {map : List (κ × α)} (h : Sorted map)
    (entries : List (κ × α)) : Sorted (insertAll map entries) := by
  induction entries generalizing map with
  | nil => exact h
  | cons e entries ih => exact ih (sorted_insert h e.1 e.2)

theorem sorted_assign [Std.TransOrd κ] [Std.LawfulEqOrd κ] {map : List (κ × α)} (h : Sorted map)
    (k : κ) (a : α) : Sorted (assign map k a) := by
  induction map with
  | nil => exact List.pairwise_singleton _ _
  | cons e map ih =>
    obtain ⟨hfront, hmap⟩ := List.pairwise_cons.mp h
    rw [assign]
    split
    · rename_i hlt
      refine List.pairwise_cons.mpr ⟨fun e' he' => ?_, h⟩
      rcases List.mem_cons.mp he' with rfl | he'
      · exact hlt
      · exact Std.TransCmp.lt_trans hlt (hfront e' he')
    · rename_i heq
      rw [Std.LawfulEqCmp.eq_of_compare heq]
      exact List.pairwise_cons.mpr ⟨hfront, hmap⟩
    · rename_i hgt
      refine List.pairwise_cons.mpr ⟨fun e' he' => ?_, ih hmap⟩
      rcases mem_of_mem_assign he' with rfl | he'
      · exact Std.OrientedCmp.gt_iff_lt.mp hgt
      · exact hfront e' he'

theorem sorted_assignAll [Std.TransOrd κ] [Std.LawfulEqOrd κ] {map : List (κ × α)} (h : Sorted map)
    (entries : List (κ × α)) :
    Sorted (entries.foldl (fun map e => assign map e.1 e.2) map) := by
  induction entries generalizing map with
  | nil => exact h
  | cons e entries ih => exact ih (sorted_assign h e.1 e.2)

/-- Where no key occurs twice, the order of the entries does not matter. -/
theorem lookup_perm {κ α : Type} [BEq κ] [LawfulBEq κ] {entries entries' : List (κ × α)}
    (h : entries.Perm entries') (hkeys : (entries.map Prod.fst).Nodup) (k : κ) :
    entries.lookup k = entries'.lookup k := by
  induction h with
  | nil => rfl
  | cons e _ ih =>
    rw [List.map_cons, List.nodup_cons] at hkeys
    rw [List.lookup_cons, List.lookup_cons, ih hkeys.2]
  | swap e e' entries =>
    have hne : e.1 ≠ e'.1 := by
      rw [List.map_cons, List.map_cons, List.nodup_cons, List.mem_cons, not_or] at hkeys
      exact fun heq => hkeys.1.1 heq.symm
    rw [List.lookup_cons, List.lookup_cons, List.lookup_cons, List.lookup_cons]
    by_cases he : k == e.1
    · have he' : ¬(k == e'.1) := fun he' => hne ((eq_of_beq he).symm.trans (eq_of_beq he'))
      simp [he, he']
    · simp [he]
  | trans h _ ih ih' => exact (ih hkeys).trans (ih' ((h.map Prod.fst).nodup hkeys))

/-- Entries with new keys are inserted between the others. -/
theorem insert_perm [Std.LawfulEqOrd κ] {map : List (κ × α)} {k : κ} (a : α)
    (h : k ∉ map.map Prod.fst) : (insert map k a).Perm ((k, a) :: map) := by
  induction map with
  | nil => exact .refl _
  | cons e map ih =>
    rw [List.map_cons, List.mem_cons, not_or] at h
    rw [insert]
    split
    · exact .refl _
    · rename_i heq
      exact absurd (Std.LawfulEqCmp.eq_of_compare heq) h.1
    · exact ((ih h.2).cons e).trans (.swap ..)

theorem insertAll_perm [Std.LawfulEqOrd κ] {map entries : List (κ × α)}
    (h : ((map ++ entries).map Prod.fst).Nodup) :
    (insertAll map entries).Perm (map ++ entries) := by
  induction entries generalizing map with
  | nil => simp
  | cons e entries ih =>
    have hmove : (map ++ e :: entries).Perm (e :: (map ++ entries)) := List.perm_middle
    have hnew : e.1 ∉ map.map Prod.fst := by
      have hkeys := (hmove.map Prod.fst).nodup h
      rw [List.map_cons, List.nodup_cons, List.map_append, List.mem_append, not_or] at hkeys
      exact hkeys.1.1
    have hinsert : (insert map e.1 e.2 ++ entries).Perm (e :: (map ++ entries)) :=
      (insert_perm e.2 hnew).append_right entries
    rw [insertAll_cons]
    refine (ih ?_).trans (hinsert.trans hmove.symm)
    exact ((hinsert.trans hmove.symm).map Prod.fst).symm.nodup h

end ProofKit.SortedMaps
