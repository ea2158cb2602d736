import Mathlib.Logic.Function.Basic
import Starfall.ProofKit.Runs

/-! Threads that acquire and release recursive mutexes.  The code of a thread is what it has left to
acquire and release.  When each thread nests its mutexes in an order of its own, two threads can
wait for each other only over two mutexes that they nest in opposite orders. -/

namespace ProofKit.Locks

open ProofKit.Runs

variable {T L : Type*}

inductive Op (L : Type*)
  | acquire (l : L)
  | release (l : L)
  deriving DecidableEq, Repr

/-- What each thread has left to do, and how deep it holds each mutex. -/
structure State (T L : Type*) where
  code : T → List (Op L)
  held : T → L → Nat

inductive Event (T L : Type*)
  /-- A thread that has nothing left to do calls a routine. -/
  | call (t : T) (ops : List (Op L))
  | act (t : T)
  deriving DecidableEq, Repr

variable [DecidableEq T] [DecidableEq L]

/-- A mutex around a body. -/
def guarded (l : L) (body : List (Op L)) : List (Op L) := .acquire l :: (body ++ [.release l])

/-- `held` with the mutex `l` at the given depth. -/
def State.after (s : State T L) (t : T) (ops : List (Op L)) (l : L) (depth : Nat) : State T L where
  code := Function.update s.code t ops
  held := Function.update s.held t (Function.update (s.held t) l depth)

/-- The steps of threads that call the given routines.  A thread acquires a mutex when no other
thread holds it. -/
inductive Step (routine : T → List (Op L) → Prop) (s : State T L) : Event T L → State T L → Prop
  | call {t : T} {ops : List (Op L)} : s.code t = [] → routine t ops →
    Step routine s (.call t ops) { s with code := Function.update s.code t ops }
  | acquire {t : T} {l : L} {ops : List (Op L)} : s.code t = .acquire l :: ops →
    (∀ u, u ≠ t → s.held u l = 0) → Step routine s (.act t) (s.after t ops l (s.held t l + 1))
  | release {t : T} {l : L} {ops : List (Op L)} : s.code t = .release l :: ops →
    Step routine s (.act t) (s.after t ops l (s.held t l - 1))

def threads (routine : T → List (Op L) → Prop) : System (State T L) (Event T L) where
  init s := s = ⟨fun _ => [], fun _ _ => 0⟩
  step := Step routine

/-- `t` waits for the mutex `l`, which `u` holds. -/
def Waits (s : State T L) (t u : T) (l : L) : Prop :=
  ∃ ops, s.code t = .acquire l :: ops ∧ 0 < s.held u l

/-- Two threads wait for each other. -/
def Deadlocked (s : State T L) (t u : T) : Prop :=
  (∃ l, Waits s t u l) ∧ ∃ l, Waits s u t l

/-- The code releases what it acquires and what is held, and acquires a mutex only inside of those
that may come before it. -/
def Legal (before : L → L → Prop) : (L → Nat) → List (Op L) → Prop
  | held, [] => ∀ l, held l = 0
  | held, .acquire l :: ops => (∀ k, 0 < held k → k = l ∨ before k l) ∧
      Legal before (Function.update held l (held l + 1)) ops
  | held, .release l :: ops => 0 < held l ∧
      Legal before (Function.update held l (held l - 1)) ops

/-- The code can be put before any legal code. -/
def Keeps (before : L → L → Prop) (held : L → Nat) (ops : List (Op L)) : Prop :=
  ∀ rest, Legal before held rest → Legal before held (ops ++ rest)

namespace Keeps

variable {before : L → L → Prop} {held : L → Nat}

theorem nil : Keeps before held [] := fun _ h => h

theorem append {first second : List (Op L)} (h1 : Keeps before held first)
    (h2 : Keeps before held second) : Keeps before held (first ++ second) := by
  intro rest h
  rw [List.append_assoc]
  exact h1 _ (h2 rest h)

theorem guarded {l : L} {body : List (Op L)} (order : ∀ k, 0 < held k → k = l ∨ before k l)
    (h : Keeps before (Function.update held l (held l + 1)) body) :
    Keeps before held (Locks.guarded l body) := by
  intro rest hrest
  have released : Legal before (Function.update held l (held l + 1)) (.release l :: rest) := by
    refine ⟨?_, ?_⟩
    · rw [Function.update_self]
      exact Nat.succ_pos _
    · rw [Function.update_self, Function.update_idem, Nat.add_sub_cancel, Function.update_eq_self]
      exact hrest
  refine ⟨order, ?_⟩
  show Legal before _ ((body ++ [.release l]) ++ rest)
  rw [List.append_assoc]
  exact h _ released

theorem flatMap {α : Type*} {f : α → List (Op L)} (h : ∀ a, Keeps before held (f a))
    (as : List α) : Keeps before held (as.flatMap f) := by
  induction as with
  | nil => exact nil
  | cons a as ih => exact (h a).append ih

/-- Code that starts with no mutex held ends with none. -/
theorem legal {ops : List (Op L)} (h : Keeps before (fun _ => 0) ops) :
    Legal before (fun _ => 0) ops := by
  have done := h [] fun _ => rfl
  rwa [List.append_nil] at done

end Keeps

section Invariants

variable {routine : T → List (Op L) → Prop} {before : T → L → L → Prop} {s s' : State T L}

/-- Each thread has legal code left, and no mutex is held by two threads. -/
structure Disciplined (before : T → L → L → Prop) (s : State T L) : Prop where
  legal : ∀ t, Legal (before t) (s.held t) (s.code t)
  exclusive : ∀ t u l, 0 < s.held t l → 0 < s.held u l → t = u

theorem after_held (s : State T L) (t u : T) (ops : List (Op L)) (l k : L) (depth : Nat) :
    (s.after t ops l depth).held u k = if u = t ∧ k = l then depth else s.held u k := by
  by_cases hu : u = t
  · subst hu
    by_cases hk : k = l
    · subst hk
      simp [State.after]
    · simp [State.after, hk]
  · simp [State.after, hu]

theorem after_code (s : State T L) (t : T) (ops : List (Op L)) (l : L) (depth : Nat) :
    (s.after t ops l depth).code t = ops := Function.update_self _ _ _

theorem after_other (s : State T L) {t u : T} (h : u ≠ t) (ops : List (Op L)) (l : L)
    (depth : Nat) : (s.after t ops l depth).code u = s.code u ∧
      (s.after t ops l depth).held u = s.held u :=
  ⟨Function.update_of_ne h _ _, Function.update_of_ne h _ _⟩

theorem legal_after (h : ∀ u, Legal (before u) (s.held u) (s.code u)) {t : T}
    {ops : List (Op L)} {l : L} {depth : Nat}
    (left : Legal (before t) (Function.update (s.held t) l depth) ops) (u : T) :
    Legal (before u) ((s.after t ops l depth).held u) ((s.after t ops l depth).code u) := by
  by_cases hu : u = t
  · subst hu
    rw [after_code]
    simpa [State.after] using left
  · obtain ⟨hcode, hheld⟩ := after_other s hu ops l depth
    rw [hcode, hheld]
    exact h u

theorem disciplined_step {e : Event T L}
    (routines : ∀ t ops, routine t ops → Legal (before t) (fun _ => 0) ops)
    (h : Disciplined before s) (step : Step routine s e s') : Disciplined before s' := by
  cases step with
  | @call t ops hcode hroutine =>
    refine ⟨fun u => ?_, h.exclusive⟩
    by_cases hu : u = t
    · subst hu
      have free : s.held u = fun _ => 0 := by
        have empty := h.legal u
        rw [hcode] at empty
        exact funext empty
      show Legal _ (s.held u) (Function.update s.code u ops u)
      rw [Function.update_self, free]
      exact routines u ops hroutine
    · show Legal _ (s.held u) (Function.update s.code t ops u)
      rw [Function.update_of_ne hu]
      exact h.legal u
  | @acquire t l ops hcode hfree =>
    have legal := h.legal t
    rw [hcode] at legal
    refine ⟨legal_after h.legal legal.2, fun u v k hu hv => ?_⟩
    rw [after_held] at hu hv
    by_cases hk : k = l
    · subst hk
      have only : ∀ w, 0 < (if w = t ∧ k = k then s.held t k + 1 else s.held w k) → w = t := by
        intro w hw
        by_contra hne
        rw [if_neg (fun h => hne h.1), hfree w hne] at hw
        exact Nat.lt_irrefl 0 hw
      rw [only u hu, only v hv]
    · rw [if_neg (fun h => hk h.2)] at hu hv
      exact h.exclusive u v k hu hv
  | @release t l ops hcode =>
    have legal := h.legal t
    rw [hcode] at legal
    refine ⟨legal_after h.legal legal.2, fun u v k hu hv => ?_⟩
    have less : ∀ w, 0 < (s.after t ops l (s.held t l - 1)).held w k → 0 < s.held w k := by
      intro w hw
      rw [after_held] at hw
      split at hw
      · rename_i hwk
        rw [hwk.1, hwk.2]
        omega
      · exact hw
    exact h.exclusive u v k (less u hu) (less v hv)

theorem threads_disciplined
    (routines : ∀ t ops, routine t ops → Legal (before t) (fun _ => 0) ops)
    {es : List (Event T L)} (run : (threads routine).Run es s) : Disciplined before s := by
  refine run.invariant (I := fun _ s => Disciplined before s) ?_ ?_
  · rintro s rfl
    exact ⟨fun t l => rfl, fun t u l h => absurd h (Nat.lt_irrefl 0)⟩
  · intro es s e s' _ h step
    exact disciplined_step routines h step

omit [DecidableEq T] in
/-- A thread waits only for a mutex that may come after those that it holds. -/
theorem Disciplined.waits {t u : T} {k l : L} (h : Disciplined before s) (hne : t ≠ u)
    (hwaits : Waits s t u l) (hheld : 0 < s.held t k) : before t k l := by
  obtain ⟨ops, hcode, hother⟩ := hwaits
  have legal := h.legal t
  rw [hcode] at legal
  rcases legal.1 k hheld with rfl | hbefore
  · exact absurd (h.exclusive t u k hheld hother) hne
  · exact hbefore

end Invariants

/-- At the given depth of the mutex `k`, the code acquires `l` before it has released `k`. -/
def Reaches (k l : L) : Nat → List (Op L) → Prop
  | 0, _ => False
  | _ + 1, [] => False
  | depth + 1, .acquire m :: ops => m = l ∨ Reaches k l (if m = k then depth + 2 else depth + 1) ops
  | depth + 1, .release m :: ops => Reaches k l (if m = k then depth else depth + 1) ops

/-- `t` holds `k` and acquires `l` before it has released `k`. -/
def Window (s : State T L) (t : T) (k l : L) : Prop := Reaches k l (s.held t k) (s.code t)

/-- Of a thread `t` that nests `l` in `k` and a thread `u` that nests `k` in `l`, neither starts to
do so while the other has not got its second mutex. -/
def Apart (t u : T) (k l : L) (s : State T L) (e : Event T L) : Prop :=
  (e = .act t → ∀ ops, s.code t = .acquire k :: ops → s.held t k = 0 → Reaches k l 1 ops →
    ¬Window s u l k) ∧
  (e = .act u → ∀ ops, s.code u = .acquire l :: ops → s.held u l = 0 → Reaches l k 1 ops →
    ¬Window s t k l)

section Windows

variable {routine : T → List (Op L) → Prop} {before : T → L → L → Prop} {s s' : State T L}
  {t u : T} {k l : L}

theorem reaches_acquire {m : L} {ops : List (Op L)} {depth : Nat} (h : 0 < depth) :
    Reaches k l depth (.acquire m :: ops) ↔
      m = l ∨ Reaches k l (if m = k then depth + 1 else depth) ops := by
  cases depth with
  | zero => exact absurd h (Nat.lt_irrefl 0)
  | succ depth => exact Iff.rfl

theorem reaches_release {m : L} {ops : List (Op L)} {depth : Nat} (h : 0 < depth) :
    Reaches k l depth (.release m :: ops) ↔
      Reaches k l (if m = k then depth - 1 else depth) ops := by
  cases depth with
  | zero => exact absurd h (Nat.lt_irrefl 0)
  | succ depth => exact Iff.rfl

theorem Reaches.pos {depth : Nat} {ops : List (Op L)} (h : Reaches k l depth ops) : 0 < depth := by
  cases depth with
  | zero =>
    cases ops with
    | nil => exact h.elim
    | cons op ops => exact h.elim
  | succ depth => exact Nat.succ_pos depth

omit [DecidableEq T] in
theorem Waits.window (h : Waits s t u l) (hheld : 0 < s.held t k) : Window s t k l := by
  obtain ⟨ops, hcode, -⟩ := h
  rw [Window, hcode, reaches_acquire hheld]
  exact .inl rfl

/-- A window opens when the thread acquires the first of the two mutexes. -/
theorem window_step {e : Event T L} (h : Disciplined before s) (step : Step routine s e s')
    (window : Window s' t k l) :
    Window s t k l ∨ e = .act t ∧ ∃ ops, s.code t = .acquire k :: ops ∧ s.held t k = 0 ∧
      Reaches k l 1 ops := by
  cases step with
  | @call u ops hcode hroutine =>
    by_cases ht : t = u
    · subst ht
      have empty := h.legal t
      rw [hcode] at empty
      have held : 0 < s.held t k := window.pos
      rw [empty k] at held
      exact absurd held (Nat.lt_irrefl 0)
    · have other : Reaches k l (s.held t k) (Function.update s.code u ops t) := window
      rw [Function.update_of_ne ht] at other
      exact .inl other
  | @acquire u m ops hcode hfree =>
    by_cases ht : t = u
    · subst ht
      rw [Window, after_code, after_held] at window
      by_cases hm : m = k
      · subst hm
        rw [if_pos ⟨rfl, rfl⟩] at window
        by_cases hzero : s.held t m = 0
        · rw [hzero] at window
          exact .inr ⟨rfl, ops, hcode, hzero, window⟩
        · refine .inl ?_
          rw [Window, hcode, reaches_acquire (Nat.pos_of_ne_zero hzero), if_pos rfl]
          exact .inr window
      · rw [if_neg fun h => hm h.2.symm] at window
        refine .inl ?_
        rw [Window, hcode, reaches_acquire window.pos, if_neg hm]
        exact .inr window
    · obtain ⟨hsame, hheld⟩ := after_other s ht ops m (s.held u m + 1)
      rw [Window, hsame, hheld] at window
      exact .inl window
  | @release u m ops hcode =>
    by_cases ht : t = u
    · subst ht
      have legal := h.legal t
      rw [hcode] at legal
      rw [Window, after_code, after_held] at window
      refine .inl ?_
      by_cases hm : m = k
      · subst hm
        rw [if_pos ⟨rfl, rfl⟩] at window
        rw [Window, hcode, reaches_release legal.1, if_pos rfl]
        exact window
      · rw [if_neg fun h => hm h.2.symm] at window
        rw [Window, hcode, reaches_release window.pos, if_neg hm]
        exact window
    · obtain ⟨hsame, hheld⟩ := after_other s ht ops m (s.held u m - 1)
      rw [Window, hsame, hheld] at window
      exact .inl window

/-- The windows of the other thread are not touched. -/
theorem window_other {e : Event T L} (step : Step routine s e s') (h : e = .act t) (hne : u ≠ t) :
    Window s' u l k ↔ Window s u l k := by
  cases step with
  | call => cases h
  | @acquire v m ops hcode hfree =>
    cases h
    obtain ⟨hcode, hheld⟩ := after_other s hne ops m (s.held t m + 1)
    rw [Window, Window, hcode, hheld]
  | @release v m ops hcode =>
    cases h
    obtain ⟨hcode, hheld⟩ := after_other s hne ops m (s.held t m - 1)
    rw [Window, Window, hcode, hheld]

/-- In every run whose steps keep the windows apart, they are never both open. -/
theorem windows_apart (hne : t ≠ u)
    (routines : ∀ t ops, routine t ops → Legal (before t) (fun _ => 0) ops)
    {es : List (Event T L)} (run : ((threads routine).restrict (Apart t u k l)).Run es s) :
    ¬(Window s t k l ∧ Window s u l k) := by
  have apart : Disciplined before s ∧ ¬(Window s t k l ∧ Window s u l k) := by
    refine run.invariant (I := fun _ s => Disciplined before s ∧
      ¬(Window s t k l ∧ Window s u l k)) ?_ ?_
    · rintro s rfl
      exact ⟨threads_disciplined routines (.nil rfl), fun h => Nat.lt_irrefl 0 h.1.pos⟩
    · rintro es s e s' - ⟨disciplined, closed⟩ ⟨⟨first, second⟩, step⟩
      refine ⟨disciplined_step routines disciplined step, fun ⟨hfirst, hsecond⟩ => ?_⟩
      rcases window_step disciplined step hfirst with old | ⟨rfl, ops, hcode, hzero, hreaches⟩
      · rcases window_step disciplined step hsecond with old' | ⟨rfl, ops, hcode, hzero, hreaches⟩
        · exact closed ⟨old, old'⟩
        · exact second rfl ops hcode hzero hreaches old
      · exact first rfl ops hcode hzero hreaches ((window_other step rfl hne.symm).mp hsecond)
  exact apart.2

/-- A step that does not keep the windows apart opens both. -/
theorem apart_of_closed {e : Event T L} (hne : t ≠ u) (step : Step routine s e s')
    (h : ¬(Window s' t k l ∧ Window s' u l k)) : Apart t u k l s e := by
  have opens : ∀ {v w : T} {m n : L}, v ≠ w → e = .act v → ∀ ops, s.code v = .acquire m :: ops →
      s.held v m = 0 → Reaches m n 1 ops → Window s w n m → Window s' v m n ∧ Window s' w n m := by
    intro v w m n hvw he ops hcode hzero hreaches hother
    refine ⟨?_, (window_other step he hvw.symm).mpr hother⟩
    subst he
    cases step with
    | @acquire v m' ops' hcode' hfree =>
      rw [hcode] at hcode'
      cases hcode'
      rw [Window, after_code, after_held, if_pos ⟨rfl, rfl⟩, hzero]
      exact hreaches
    | release hcode' =>
      rw [hcode] at hcode'
      cases hcode'
  refine ⟨fun he ops hcode hzero hreaches hother => h ?_,
    fun he ops hcode hzero hreaches hother => h ?_⟩
  · exact opens hne he ops hcode hzero hreaches hother
  · exact (opens hne.symm he ops hcode hzero hreaches hother).symm

/-- A thread that nests nothing but `l` in `k` gets from its window to where it needs `l`. -/
theorem window_runs (routines : ∀ t ops, routine t ops → Legal (before t) (fun _ => 0) ops)
    (only : ∀ m, before t k m → m = l) {es : List (Event T L)} (run : (threads routine).Run es s)
    (window : Window s t k l) :
    ∃ es' s', (threads routine).Run (es ++ es') s' ∧ 0 < s'.held t k ∧
      (∃ ops, s'.code t = .acquire l :: ops) ∧
      ∀ v, v ≠ t → s'.code v = s.code v ∧ s'.held v = s.held v := by
  have disciplined : Disciplined before s := threads_disciplined routines run
  have legal := disciplined.legal t
  have held : 0 < s.held t k := window.pos
  induction hcode : s.code t generalizing s es with
  | nil =>
    rw [hcode] at legal
    rw [legal k] at held
    exact absurd held (Nat.lt_irrefl 0)
  | cons op ops ih =>
    rw [hcode] at legal
    rw [Window, hcode] at window
    have resume : ∀ {m : L} {depth : Nat} {s' : State T L}, s' = s.after t ops m depth →
        Step routine s (.act t) s' → Reaches k l (s'.held t k) ops →
        ∃ es' s', (threads routine).Run (es ++ es') s' ∧ 0 < s'.held t k ∧
          (∃ ops, s'.code t = .acquire l :: ops) ∧
          ∀ v, v ≠ t → s'.code v = s.code v ∧ s'.held v = s.held v := by
      rintro m depth s' rfl step hreaches
      have left : (s.after t ops m depth).code t = ops := after_code s t ops m depth
      have next := run.snoc step
      have disciplined' := disciplined_step routines disciplined step
      have window : Window (s.after t ops m depth) t k l := by
        rw [Window, left]
        exact hreaches
      obtain ⟨es', s'', run', hheld, hops, hothers⟩ :=
        ih next window disciplined' (disciplined'.legal t) hreaches.pos left
      refine ⟨.act t :: es', s'', ?_, hheld, hops, fun v hv => ?_⟩
      · rw [List.append_assoc] at run'
        exact run'
      · obtain ⟨hcode, hheld⟩ := after_other s hv ops m depth
        rw [← hcode, ← hheld]
        exact hothers v hv
    cases op with
    | acquire m =>
      by_cases hm : m = l
      · refine ⟨[], s, ?_, held, ⟨ops, hm ▸ hcode⟩, fun v _ => ⟨rfl, rfl⟩⟩
        rw [List.append_nil]
        exact run
      · have same : k = m := (legal.1 k held).resolve_right fun h => hm (only m h)
        subst same
        have free : ∀ v, v ≠ t → s.held v k = 0 := fun v hv =>
          Nat.eq_zero_of_not_pos fun hpos => hv (disciplined.exclusive v t k hpos held)
        have reaches := ((reaches_acquire held).mp window).resolve_left hm
        refine resume rfl (.acquire hcode free) ?_
        rw [after_held, if_pos ⟨rfl, rfl⟩]
        rw [if_pos rfl] at reaches
        exact reaches
    | release m =>
      have reaches := (reaches_release held).mp window
      refine resume rfl (.release hcode) ?_
      rw [after_held]
      by_cases hm : m = k
      · subst hm
        rw [if_pos rfl] at reaches
        rw [if_pos ⟨rfl, rfl⟩]
        exact reaches
      · rw [if_neg hm] at reaches
        rw [if_neg fun h => hm h.2.symm]
        exact reaches

/-- When both windows are open, the threads can come to wait for each other. -/
theorem windows_deadlock (routines : ∀ t ops, routine t ops → Legal (before t) (fun _ => 0) ops)
    (hne : t ≠ u) (first : ∀ m, before t k m → m = l) (second : ∀ m, before u l m → m = k)
    {es : List (Event T L)} (run : (threads routine).Run es s) (h1 : Window s t k l)
    (h2 : Window s u l k) :
    ∃ es' s', (threads routine).Run (es ++ es') s' ∧ Deadlocked s' t u := by
  obtain ⟨es1, s1, run1, held1, ⟨ops1, code1⟩, others1⟩ := window_runs routines first run h1
  have h2' : Window s1 u l k := by
    rw [Window, (others1 u hne.symm).1, (others1 u hne.symm).2]
    exact h2
  obtain ⟨es2, s2, run2, held2, ⟨ops2, code2⟩, others2⟩ := window_runs routines second run1 h2'
  rw [List.append_assoc] at run2
  refine ⟨es1 ++ es2, s2, run2, ⟨l, ops1, ?_, held2⟩, ⟨k, ops2, code2, ?_⟩⟩
  · rw [(others2 t hne).1]
    exact code1
  · rw [(others2 t hne).2]
    exact held1

end Windows

end ProofKit.Locks
