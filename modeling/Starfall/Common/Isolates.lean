import Mathlib.Data.List.AList
import Mathlib.Logic.Function.Basic
import Starfall.ProofKit.Runs

/-! `Isolates.cpp`: the isolates of V8 that entities hold.  `Acquire` counts the entities of the
isolate that the calling thread is in, and `Release` exits and disposes of an isolate when the count
is 0.  But `Exit` takes only the calling thread out of it, so a thread whose last entity dies
elsewhere goes on acquiring the isolate that was disposed of. -/

namespace Starfall.Isolates

open ProofKit.Runs

/-- An isolate of V8, by the number of those that `New` returned before it. -/
abbrev Isolate := Nat

/-- Of V8, how many isolates `New` has returned, the isolate that each thread is in, and those that
were disposed of, in order.  Beside them `Isolates::Map`, and the isolate of each live entity. -/
structure State (T : Type) where
  news : Nat
  getCurrent : T → Option Isolate
  disposed : List Isolate
  map : AList fun _ : Isolate => UInt32
  live : List Isolate

variable {T : Type} [DecidableEq T]

namespace State

/-- The isolate of the thread, which enters a new one when it is in none. -/
def current (s : State T) (thread : T) : Isolate × State T :=
  match s.getCurrent thread with
  | some currentIsolate => (currentIsolate, s)
  | none => (s.news, { s with
      news := s.news + 1
      getCurrent := Function.update s.getCurrent thread (some s.news) })

def acquire (s : State T) (thread : T) : Isolate × State T :=
  let (currentIsolate, s) := s.current thread
  let count := match s.map.lookup currentIsolate with
    | some count => count + 1
    | none => 1
  (currentIsolate, { s with map := s.map.insert currentIsolate count })

/-- `Release`, where `exit` says which isolate a thread is in after an `Exit` of the given one. -/
def release (exit : Option Isolate → Isolate → Option Isolate) (s : State T) (thread : T)
    (releaseIsolate : Isolate) : UInt32 × State T :=
  match s.map.lookup releaseIsolate with
  | some count =>
    if count - 1 = 0 then
      (0, { s with
        getCurrent :=
          Function.update s.getCurrent thread (exit (s.getCurrent thread) releaseIsolate)
        disposed := s.disposed ++ [releaseIsolate]
        map := s.map.erase releaseIsolate })
    else
      (count - 1, { s with map := s.map.insert releaseIsolate (count - 1) })
  | none => (0, s)

end State

/-- The constructor of an entity runs on a thread, or the destructor of one that holds the given
isolate. -/
inductive Event (T : Type)
  | construct (thread : T)
  | destroy (thread : T) (isolate : Isolate)
  deriving DecidableEq, Repr

section Runs

variable (exit : Option Isolate → Isolate → Option Isolate)

def next (s : State T) : Event T → Option (State T)
  | .construct thread =>
    let (isolate, s) := s.acquire thread
    some { s with live := s.live ++ [isolate] }
  | .destroy thread isolate =>
    if isolate ∈ s.live then
      some { (s.release exit thread isolate).2 with live := s.live.erase isolate }
    else none

/-- Threads that are in no isolate, and no entities. -/
def start (T : Type) : State T := ⟨0, fun _ => none, [], ∅, []⟩

def isolates : System (State T) (Event T) where
  init s := s = start T
  step s e s' := next exit s e = some s'

end Runs

/-- The map counts the live entities of each isolate, none of which was disposed of, and those that
were are those that entities held and none holds any more, each once. -/
structure Exact (s : State T) : Prop where
  counted : ∀ i, ((s.map.lookup i).map UInt32.toNat).getD 0 = s.live.count i
  held : ∀ i ∈ s.live, i ∉ s.disposed
  disposed : ∀ i, i ∈ s.disposed ↔ i < s.news ∧ i ∉ s.live
  once : s.disposed.Nodup

/-- The last entity of an isolate dies on the thread that is in it, and the entities of one that
gets another fit in the counter. -/
def AtHome (s : State T) : Event T → Prop
  | .construct thread => ∀ i, s.getCurrent thread = some i → s.live.count i + 1 < UInt32.size
  | .destroy thread i => s.live.count i = 1 → s.getCurrent thread = some i

/-- Every isolate of a live entity has one thread in it, and there are no others with one. -/
structure Entered (s : State T) : Prop where
  current : ∀ thread i, s.getCurrent thread = some i → i ∈ s.live
  unique : ∀ thread thread' i, s.getCurrent thread = some i → s.getCurrent thread' = some i →
    thread = thread'
  entered : ∀ i ∈ s.live, ∃ thread, s.getCurrent thread = some i
  issued : ∀ i ∈ s.live, i < s.news

section Steps

variable {s : State T} {thread : T} {i : Isolate}

omit [DecidableEq T] in
theorem Exact.lookup (h : Exact s) (hlive : i ∈ s.live) :
    ∃ count : UInt32, s.map.lookup i = some count ∧ count.toNat = s.live.count i := by
  have hcount := h.counted i
  cases hmap : s.map.lookup i with
  | some count =>
    rw [hmap] at hcount
    exact ⟨count, rfl, hcount⟩
  | none =>
    rw [hmap] at hcount
    exact absurd hcount.symm (Nat.ne_of_gt (List.count_pos_iff.mpr hlive))

theorem acquire_entered (h : Exact s) (entered : Entered s)
    (hcurrent : s.getCurrent thread = some i) :
    ∃ count : UInt32, count.toNat = s.live.count i ∧
      s.acquire thread = (i, { s with map := s.map.insert i (count + 1) }) := by
  obtain ⟨count, hmap, hcount⟩ := h.lookup (entered.current thread i hcurrent)
  refine ⟨count, hcount, ?_⟩
  rw [State.acquire, State.current, hcurrent]
  dsimp only
  rw [hmap]

theorem acquire_new (h : Exact s) (entered : Entered s) (hcurrent : s.getCurrent thread = none) :
    ∃ count : UInt32, count.toNat = 1 ∧ s.acquire thread = (s.news, { s with
      news := s.news + 1
      getCurrent := Function.update s.getCurrent thread (some s.news)
      map := s.map.insert s.news count }) := by
  have hnew : s.news ∉ s.live := fun hlive => Nat.lt_irrefl _ (entered.issued _ hlive)
  have hcount := h.counted s.news
  rw [List.count_eq_zero_of_not_mem hnew] at hcount
  cases hmap : s.map.lookup s.news with
  | some count =>
    rw [hmap] at hcount
    have hzero : count = 0 := UInt32.toNat_inj.mp hcount
    refine ⟨count + 1, by rw [hzero]; rfl, ?_⟩
    rw [State.acquire, State.current, hcurrent]
    dsimp only
    rw [hmap]
  | none =>
    refine ⟨1, rfl, ?_⟩
    rw [State.acquire, State.current, hcurrent]
    dsimp only
    rw [hmap]

variable {exit : Option Isolate → Isolate → Option Isolate}

theorem release_last (h : Exact s) (hlast : s.live.count i = 1) :
    (s.release exit thread i).2 = { s with
      getCurrent := Function.update s.getCurrent thread (exit (s.getCurrent thread) i)
      disposed := s.disposed ++ [i]
      map := s.map.erase i } := by
  have hlive : i ∈ s.live := List.count_pos_iff.mp (by omega)
  obtain ⟨count, hmap, hcount⟩ := h.lookup hlive
  have hone : count = 1 := UInt32.toNat_inj.mp (hcount.trans hlast)
  rw [State.release, hmap]
  dsimp only
  rw [if_pos (by rw [hone]; rfl)]

theorem release_more (h : Exact s) (hmore : 1 < s.live.count i) :
    ∃ count : UInt32, count.toNat = s.live.count i - 1 ∧
      (s.release exit thread i).2 = { s with map := s.map.insert i count } := by
  have hlive : i ∈ s.live := List.count_pos_iff.mp (by omega)
  obtain ⟨count, hmap, hcount⟩ := h.lookup hlive
  have hle : (1 : UInt32) ≤ count := by
    rw [UInt32.le_iff_toNat_le, hcount]
    exact Nat.le_of_lt hmore
  have hless : (count - 1).toNat = s.live.count i - 1 := by
    rw [UInt32.toNat_sub_of_le _ _ hle, hcount]
    rfl
  refine ⟨count - 1, hless, ?_⟩
  rw [State.release, hmap]
  dsimp only
  rw [if_neg]
  intro hzero
  rw [hzero, UInt32.toNat_zero] at hless
  omega

omit [DecidableEq T] in
/-- An isolate that was not disposed of gets one more entity, and is counted. -/
theorem Exact.construct (h : Exact s) {news : Nat} {getCurrent : T → Option Isolate}
    {count : UInt32} (hcount : count.toNat = s.live.count i + 1) (hdisposed : i ∉ s.disposed)
    (hnews : ∀ j, j < news ↔ j < s.news ∨ j = i) :
    Exact { s with
      news, getCurrent, map := s.map.insert i count, live := s.live ++ [i] } where
  counted j := by
    by_cases hj : j = i
    · subst hj
      rw [AList.lookup_insert, List.count_append, List.count_singleton_self]
      exact hcount
    · rw [AList.lookup_insert_ne hj, List.count_append, List.count_singleton, if_neg, h.counted j,
        Nat.add_zero]
      simpa using Ne.symm hj
  held j hj := by
    rcases List.mem_append.mp hj with hj | hj
    · exact h.held j hj
    · rw [List.mem_singleton.mp hj]
      exact hdisposed
  disposed j := by
    rw [h.disposed, hnews, List.mem_append, List.mem_singleton, not_or]
    constructor
    · rintro ⟨hissued, hlive⟩
      refine ⟨.inl hissued, hlive, ?_⟩
      rintro rfl
      exact hdisposed ((h.disposed j).mpr ⟨hissued, hlive⟩)
    · rintro ⟨hissued, hlive, hne⟩
      exact ⟨hissued.resolve_right hne, hlive⟩
  once := h.once

theorem mem_erase_more {live : List Isolate} (hmore : 1 < live.count i) (j : Isolate) :
    j ∈ live.erase i ↔ j ∈ live := by
  by_cases hj : j = i
  · subst hj
    rw [← List.count_pos_iff, ← List.count_pos_iff, List.count_erase_self]
    omega
  · exact List.mem_erase_of_ne hj

omit [DecidableEq T] in
/-- One of several entities of an isolate dies, and is no longer counted. -/
theorem Exact.destroy_more (h : Exact s) (hmore : 1 < s.live.count i) {count : UInt32}
    (hcount : count.toNat = s.live.count i - 1) :
    Exact { s with map := s.map.insert i count, live := s.live.erase i } := by
  refine ⟨fun j => ?_, fun j hj => h.held j (List.mem_of_mem_erase hj), fun j => ?_, h.once⟩
  · by_cases hj : j = i
    · subst hj
      rw [AList.lookup_insert, List.count_erase_self]
      exact hcount
    · rw [AList.lookup_insert_ne hj, List.count_erase_of_ne hj]
      exact h.counted j
  · rw [h.disposed, mem_erase_more hmore]

omit [DecidableEq T] in
/-- The last entity of an isolate dies, and the isolate is disposed of. -/
theorem Exact.destroy_last (h : Exact s) (hlast : s.live.count i = 1) (hissued : i < s.news)
    (getCurrent : T → Option Isolate) :
    Exact { s with
      getCurrent, disposed := s.disposed ++ [i], map := s.map.erase i
      live := s.live.erase i } := by
  have hlive : i ∈ s.live := List.count_pos_iff.mp (by omega)
  have hgone : i ∉ s.live.erase i := by
    rw [← List.count_pos_iff, List.count_erase_self]
    omega
  refine ⟨fun j => ?_, fun j hj => ?_, fun j => ?_, ?_⟩
  · by_cases hj : j = i
    · subst hj
      rw [AList.lookup_erase, List.count_eq_zero_of_not_mem hgone]
      rfl
    · rw [AList.lookup_erase_ne hj, List.count_erase_of_ne hj]
      exact h.counted j
  · rw [List.mem_append, List.mem_singleton, not_or]
    refine ⟨h.held j (List.mem_of_mem_erase hj), ?_⟩
    rintro rfl
    exact hgone hj
  · rw [List.mem_append, List.mem_singleton, h.disposed]
    by_cases hj : j = i
    · subst hj
      exact iff_of_true (.inr rfl) ⟨hissued, hgone⟩
    · rw [List.mem_erase_of_ne hj, or_iff_left hj]
  · rw [List.nodup_append]
    refine ⟨h.once, List.pairwise_singleton _ _, ?_⟩
    rintro a ha b hb rfl
    rw [List.mem_singleton.mp hb] at ha
    exact h.held i hlive ha

theorem Entered.enter (h : Entered s) (hcurrent : s.getCurrent thread = none)
    (map : AList fun _ : Isolate => UInt32) :
    Entered { s with
      news := s.news + 1
      getCurrent := Function.update s.getCurrent thread (some s.news)
      map, live := s.live ++ [s.news] } := by
  have hfresh : ∀ other, s.getCurrent other ≠ some s.news :=
    fun other hother => Nat.lt_irrefl _ (h.issued _ (h.current other _ hother))
  refine ⟨fun other j hj => ?_, fun other other' j hj hj' => ?_, fun j hj => ?_, fun j hj => ?_⟩
  · simp only [Function.update_apply] at hj
    split at hj
    · cases hj
      exact List.mem_append_right _ (List.mem_singleton_self _)
    · exact List.mem_append_left _ (h.current other j hj)
  · simp only [Function.update_apply] at hj hj'
    split at hj
    · rename_i hother
      cases hj
      split at hj'
      · rename_i hother'
        rw [hother, hother']
      · exact absurd hj' (hfresh other')
    · split at hj'
      · cases hj'
        exact absurd hj (hfresh other)
      · exact h.unique other other' j hj hj'
  · rcases List.mem_append.mp hj with hj | hj
    · obtain ⟨other, hother⟩ := h.entered j hj
      have hne : other ≠ thread := by
        rintro rfl
        rw [hcurrent] at hother
        cases hother
      exact ⟨other, (Function.update_of_ne hne _ _).trans hother⟩
    · rw [List.mem_singleton.mp hj]
      exact ⟨thread, Function.update_self _ _ _⟩
  · rcases List.mem_append.mp hj with hj | hj
    · exact Nat.lt_succ_of_lt (h.issued j hj)
    · rw [List.mem_singleton.mp hj]
      exact Nat.lt_succ_self _

theorem Entered.leave (h : Entered s) (hlast : s.live.count i = 1)
    (hcurrent : s.getCurrent thread = some i) (disposed : List Isolate)
    (map : AList fun _ : Isolate => UInt32) :
    Entered { s with
      getCurrent := Function.update s.getCurrent thread none
      disposed, map, live := s.live.erase i } := by
  refine ⟨fun other j hj => ?_, fun other other' j hj hj' => ?_, fun j hj => ?_,
    fun j hj => h.issued j (List.mem_of_mem_erase hj)⟩
  · simp only [Function.update_apply] at hj
    split at hj
    · cases hj
    · rename_i hother
      have hne : j ≠ i := by
        rintro rfl
        exact hother (h.unique other thread j hj hcurrent)
      exact (List.mem_erase_of_ne hne).mpr (h.current other j hj)
  · simp only [Function.update_apply] at hj hj'
    split at hj
    · cases hj
    · split at hj'
      · cases hj'
      · exact h.unique other other' j hj hj'
  · obtain ⟨other, hother⟩ := h.entered j (List.mem_of_mem_erase hj)
    have hne : other ≠ thread := by
      rintro rfl
      rw [hcurrent] at hother
      cases hother
      rw [← List.count_pos_iff, List.count_erase_self] at hj
      omega
    exact ⟨other, (Function.update_of_ne hne _ _).trans hother⟩

omit [DecidableEq T] in
/-- Entities of isolates that already have one, and with the same ones left. -/
theorem Entered.keep (h : Entered s) {live : List Isolate} (hlive : ∀ j, j ∈ live ↔ j ∈ s.live)
    (map : AList fun _ : Isolate => UInt32) : Entered { s with map, live } where
  current other j hj := (hlive j).mpr (h.current other j hj)
  unique := h.unique
  entered j hj := h.entered j ((hlive j).mp hj)
  issued j hj := h.issued j ((hlive j).mp hj)

end Steps

section Invariant

variable {exit : Option Isolate → Isolate → Option Isolate} {s s' : State T} {e : Event T}

theorem next_construct (thread : T) : next exit s (.construct thread) = some
    { (s.acquire thread).2 with
      live := (s.acquire thread).2.live ++ [(s.acquire thread).1] } := rfl

theorem next_destroy {thread : T} {i : Isolate} (h : next exit s (.destroy thread i) = some s') :
    i ∈ s.live ∧
      s' = { (s.release exit thread i).2 with live := s.live.erase i } := by
  rw [next] at h
  split at h
  · rename_i hlive
    exact ⟨hlive, (Option.some.inj h).symm⟩
  · cases h

/-- A step that meets the condition keeps the counts, and the threads in their isolates. -/
theorem next_keeps (hexit : ∀ i, exit (some i) i = none) (counts : Exact s) (entered : Entered s)
    (good : AtHome s e) (h : next exit s e = some s') : Exact s' ∧ Entered s' := by
  cases e with
  | construct thread =>
    rw [next_construct] at h
    cases h
    cases hcurrent : s.getCurrent thread with
    | some i =>
      have hlive := entered.current thread i hcurrent
      obtain ⟨count, hcount, hacquire⟩ := acquire_entered counts entered hcurrent
      have hless := good i hcurrent
      have hadd : (count + 1).toNat = s.live.count i + 1 := by
        rw [UInt32.toNat_add, hcount, UInt32.toNat_one, Nat.mod_eq_of_lt (by omega)]
      rw [hacquire]
      refine ⟨counts.construct hadd (counts.held i hlive) fun j => ?_, entered.keep (fun j => ?_) _⟩
      · refine ⟨.inl, ?_⟩
        rintro (hissued | rfl)
        · exact hissued
        · exact entered.issued j hlive
      · rw [List.mem_append, List.mem_singleton]
        refine ⟨?_, .inl⟩
        rintro (hj | rfl)
        · exact hj
        · exact hlive
    | none =>
      obtain ⟨count, hcount, hacquire⟩ := acquire_new counts entered hcurrent
      have hnew : s.news ∉ s.live := fun hlive => Nat.lt_irrefl _ (entered.issued _ hlive)
      rw [hacquire]
      refine ⟨counts.construct ?_ (fun h => ?_) fun j => Nat.lt_succ_iff_lt_or_eq,
        entered.enter hcurrent _⟩
      · rw [hcount, List.count_eq_zero_of_not_mem hnew]
      · exact Nat.lt_irrefl _ ((counts.disposed _).mp h).1
  | destroy thread i =>
    obtain ⟨hlive, rfl⟩ := next_destroy h
    by_cases hlast : s.live.count i = 1
    · have hcurrent := good hlast
      rw [release_last counts hlast]
      dsimp only
      rw [hcurrent, hexit]
      exact ⟨counts.destroy_last hlast (entered.issued i hlive) _,
        entered.leave hlast hcurrent _ _⟩
    · have hmore : 1 < s.live.count i :=
        Nat.lt_of_le_of_ne (List.count_pos_iff.mpr hlive) (Ne.symm hlast)
      obtain ⟨count, hcount, hrelease⟩ := @release_more T _ s thread i exit counts hmore
      rw [hrelease]
      exact ⟨counts.destroy_more hmore hcount, entered.keep (mem_erase_more hmore) _⟩

theorem exact_run (hexit : ∀ i, exit (some i) i = none) {events : List (Event T)}
    (h : ((isolates exit).restrict AtHome).Run events s) : Exact s ∧ Entered s := by
  induction h with
  | nil hinit =>
    cases hinit
    refine ⟨⟨fun i => rfl, fun i hi => ?_, fun i => ?_, List.nodup_nil⟩, ⟨?_, ?_, ?_, ?_⟩⟩
    · cases hi
    · exact iff_of_false List.not_mem_nil fun h => Nat.not_lt_zero i h.1
    · intro thread i hi
      cases hi
    · intro thread thread' i hi
      cases hi
    · intro i hi
      cases hi
    · intro i hi
      cases hi
  | snoc _ hstep ih => exact next_keeps hexit ih.1 ih.2 hstep.1 hstep.2

/-- A thread in an isolate that was disposed of gives it to the next entity. -/
theorem stale_construct {thread : T} {i : Isolate} (hcurrent : s.getCurrent thread = some i)
    (hdisposed : i ∈ s.disposed) :
    ∃ s', next exit s (.construct thread) = some s' ∧ ¬Exact s' := by
  refine ⟨_, next_construct thread, fun h => ?_⟩
  rw [State.acquire, State.current, hcurrent] at h
  exact h.held i (List.mem_append_right _ (List.mem_singleton_self i)) hdisposed

/-- After a step that does not meet the condition the counts are lost, at once or when the thread
that is in the isolate constructs its next entity. -/
theorem next_loses (counts : Exact s) (entered : Entered s) (bad : ¬AtHome s e)
    (h : next exit s e = some s') :
    ∃ events last, System.exec (next exit) s' events = some last ∧ ¬Exact last := by
  cases e with
  | construct thread =>
    rw [next_construct] at h
    cases h
    rw [AtHome] at bad
    push Not at bad
    obtain ⟨i, hcurrent, hmany⟩ := bad
    obtain ⟨count, hcount, hacquire⟩ := acquire_entered counts entered hcurrent
    have hfull : s.live.count i + 1 = UInt32.size :=
      Nat.le_antisymm (hcount ▸ count.toNat_lt) hmany
    refine ⟨[], _, rfl, fun h => ?_⟩
    rw [hacquire] at h
    have hcounted := h.counted i
    dsimp only at hcounted
    rw [AList.lookup_insert, List.count_append, List.count_singleton_self, hfull] at hcounted
    have := (count + 1).toNat_lt
    exact absurd hcounted (Nat.ne_of_lt this)
  | destroy thread i =>
    obtain ⟨hlive, rfl⟩ := next_destroy h
    rw [AtHome] at bad
    push Not at bad
    obtain ⟨hlast, hcurrent⟩ := bad
    obtain ⟨other, hother⟩ := entered.entered i hlive
    have hne : other ≠ thread := by
      rintro rfl
      exact hcurrent hother
    rw [release_last counts hlast]
    obtain ⟨last, hlast, hlost⟩ := @stale_construct T _ exit
      { s with
        getCurrent := Function.update s.getCurrent thread (exit (s.getCurrent thread) i)
        disposed := s.disposed ++ [i], map := s.map.erase i, live := s.live.erase i } other i
      ((Function.update_of_ne hne _ _).trans hother)
      (List.mem_append_right _ (List.mem_singleton_self i))
    exact ⟨[.construct other], last, System.exec_cons hlast rfl, hlost⟩

/-- When every step of a run meets the condition an isolate lives as long as its entities do, and
the first step that does not meet it leads to a state in which that is lost. -/
theorem isolates_exact (hexit : ∀ i, exit (some i) i = none) {events : List (Event T)}
    (h : ((isolates exit).restrict AtHome).Run events s) :
    Exact s ∧ ∀ e s', (isolates exit).step s e s' → ¬AtHome s e →
      ∃ later last, System.exec (next exit) s' later = some last ∧ ¬Exact last := by
  obtain ⟨counts, entered⟩ := exact_run hexit h
  exact ⟨counts, fun e s' hstep bad => next_loses counts entered bad hstep⟩

end Invariant

/-- An `Exit` of the isolate that the thread is in, which it entered once. -/
def exitEntered (current : Option Isolate) (isolate : Isolate) : Option Isolate :=
  if current = some isolate then none else current

theorem constructed_exact : ∃ s : State Bool, s.disposed = [0] ∧ Exact s := by
  have hinit : ((isolates exitEntered).restrict AtHome).Run [] (start Bool) := .nil rfl
  have hconstruct := hinit.snoc
    (show ((isolates exitEntered).restrict AtHome).step _ (.construct true) _ from
      ⟨fun _ h => (by cases h), next_construct true⟩)
  have hdestroy := hconstruct.snoc
    (show ((isolates exitEntered).restrict AtHome).step _ (.destroy true 0) _ from
      ⟨fun _ => rfl, rfl⟩)
  exact ⟨_, rfl, (isolates_exact (fun i => if_pos rfl) hdestroy).1⟩

/-- Thread `true` destroys the last entity of thread `false`, which then constructs another. -/
theorem elsewhere_stale :
    ∃ s : State Bool, (isolates exitEntered).Run
        [.construct false, .destroy true 0, .construct false] s ∧
      s.live = [0] ∧ s.disposed = [0] ∧ ¬Exact s := by
  have hinit : (isolates exitEntered).Run [] (start Bool) := .nil rfl
  refine ⟨_, @System.Run.of_exec _ _ _ (next exitEntered) (fun _ _ _ h => h) _ _ _ _ hinit rfl, rfl,
    rfl, fun h => ?_⟩
  exact h.held 0 (List.mem_singleton_self 0) (List.mem_singleton_self 0)

end Starfall.Isolates
