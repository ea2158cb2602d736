import Mathlib.Logic.Function.Basic

/-! How deep a thread has locked each of its mutexes.  A computation of the thread returns, throws
or is undefined, and `lock` and `unlock` are steps like any other.  So a bare pair of them is left
halfway when the part between them throws, and a scope is not. -/

namespace ProofKit.Depths

/-- The depths of the mutexes, and what else a thread works on. -/
structure Machine (M W : Type) where
  depths : M → Nat
  world : W

/-- A computation that may be undefined with `U` and may throw an `E`. -/
abbrev Thread (M W U E α : Type) := ExceptT E (StateT (Machine M W) (Except U)) α

variable {M W U E α β : Type}

/-- From `s` on, the computation returns or throws `r` with the machine `s'`. -/
def Ends (x : Thread M W U E α) (s : Machine M W) (r : Except E α) (s' : Machine M W) : Prop :=
  x.run s = .ok (r, s')

/-- What is defined returns. -/
def fetch (x : Except U α) : Thread M W U E α := ExceptT.lift fun s => x.map fun a => (a, s)

def world : Thread M W U E W := do
  let s ← get
  pure s.world

def modifyWorld (f : W → W) : Thread M W U E Unit :=
  modify fun s => { s with world := f s.world }

section Mutexes

variable [DecidableEq M]

def lock (m : M) : Thread M W U E Unit :=
  modify fun s => { s with depths := Function.update s.depths m (s.depths m + 1) }

def unlock (m : M) : Thread M W U E Unit :=
  modify fun s => { s with depths := Function.update s.depths m (s.depths m - 1) }

/-- A scope that holds the mutex, and releases it however it is left. -/
def scopedLock (m : M) (x : Thread M W U E α) : Thread M W U E α := do
  lock m
  let a ← tryCatch x fun e => do
    unlock m
    throw e
  unlock m
  pure a

end Mutexes

theorem ends_of_run {x : Thread M W U E α} {s s' t : Machine M W} {r r' : Except E α}
    (h : x.run s = .ok (r', t)) : Ends x s r s' ↔ r = r' ∧ s' = t := by
  rw [Ends, h]
  constructor
  · rintro ⟨⟩
    exact ⟨rfl, rfl⟩
  · rintro ⟨rfl, rfl⟩
    rfl

theorem ends_pure {a : α} {s s' : Machine M W} {r : Except E α} :
    Ends (pure a : Thread M W U E α) s r s' ↔ r = .ok a ∧ s' = s :=
  ends_of_run rfl

theorem ends_throw {e : E} {s s' : Machine M W} {r : Except E α} :
    Ends (throw e : Thread M W U E α) s r s' ↔ r = .error e ∧ s' = s :=
  ends_of_run rfl

theorem ends_fetch {x : Except U α} {s s' : Machine M W} {r : Except E α} :
    Ends (fetch x : Thread M W U E α) s r s' ↔ ∃ a, x = .ok a ∧ r = .ok a ∧ s' = s := by
  cases x with
  | error u =>
    constructor
    · rintro ⟨⟩
    · rintro ⟨a, ha, -⟩
      cases ha
  | ok a =>
    constructor
    · rintro ⟨⟩
      exact ⟨a, rfl, rfl, rfl⟩
    · rintro ⟨_, ⟨⟩, rfl, rfl⟩
      rfl

theorem ends_world {s s' : Machine M W} {r : Except E W} :
    Ends (world : Thread M W U E W) s r s' ↔ r = .ok s.world ∧ s' = s :=
  ends_of_run rfl

theorem ends_modifyWorld {f : W → W} {s s' : Machine M W} {r : Except E Unit} :
    Ends (modifyWorld f : Thread M W U E Unit) s r s' ↔
      r = .ok () ∧ s' = { s with world := f s.world } :=
  ends_of_run rfl

theorem run_bind (x : Thread M W U E α) (f : α → Thread M W U E β) (s : Machine M W) :
    (x >>= f).run s = match x.run s with
      | .error u => .error u
      | .ok (.error e, mid) => .ok (.error e, mid)
      | .ok (.ok a, mid) => (f a).run mid := by
  show Except.bind (x.run s) _ = _
  rcases x.run s with u | ⟨e | a, mid⟩
  · rfl
  · rfl
  · rfl

theorem run_fetch_bind (a : α) (f : α → Thread M W U E β) (s : Machine M W) :
    (fetch (.ok a) >>= f).run s = (f a).run s := rfl

theorem run_tryCatch (x : Thread M W U E α) (f : E → Thread M W U E α) (s : Machine M W) :
    (tryCatch x f).run s = match x.run s with
      | .error u => .error u
      | .ok (.error e, mid) => (f e).run mid
      | .ok (.ok a, mid) => .ok (.ok a, mid) := by
  show Except.bind (x.run s) _ = _
  rcases x.run s with u | ⟨e | a, mid⟩
  · rfl
  · rfl
  · rfl

/-- A bind ends where its first part throws, or where its second part ends. -/
theorem ends_bind {x : Thread M W U E α} {f : α → Thread M W U E β} {s s' : Machine M W}
    {r : Except E β} :
    Ends (x >>= f) s r s' ↔
      (∃ e, r = .error e ∧ Ends x s (.error e) s') ∨
      ∃ a mid, Ends x s (.ok a) mid ∧ Ends (f a) mid r s' := by
  rw [Ends, run_bind]
  constructor
  · intro h
    split at h
    · cases h
    · rename_i e mid hx
      cases h
      exact .inl ⟨e, rfl, hx⟩
    · rename_i a mid hx
      exact .inr ⟨a, mid, hx, h⟩
  · rintro (⟨e, rfl, hx⟩ | ⟨a, mid, hx, hf⟩)
    · rw [show x.run s = _ from hx]
    · rw [show x.run s = _ from hx]
      exact hf

theorem ends_fetch_bind {x : Except U α} {f : α → Thread M W U E β} {s s' : Machine M W}
    {r : Except E β} (h : Ends (fetch x >>= f) s r s') : ∃ a, x = .ok a ∧ Ends (f a) s r s' := by
  rcases ends_bind.mp h with ⟨e, -, hfetch⟩ | ⟨a, mid, hfetch, hrest⟩
  · obtain ⟨_, -, ⟨⟩, -⟩ := ends_fetch.mp hfetch
  · obtain ⟨_, hx, ⟨⟩, rfl⟩ := ends_fetch.mp hfetch
    exact ⟨a, hx, hrest⟩

theorem ends_world_bind {f : W → Thread M W U E β} {s s' : Machine M W} {r : Except E β} :
    Ends (world >>= f) s r s' ↔ Ends (f s.world) s r s' := Iff.rfl

theorem ends_modifyWorld_bind {g : W → W} {f : Unit → Thread M W U E β} {s s' : Machine M W}
    {r : Except E β} :
    Ends (modifyWorld g >>= f) s r s' ↔ Ends (f ()) { s with world := g s.world } r s' := Iff.rfl

theorem ends_tryCatch {x : Thread M W U E α} {f : E → Thread M W U E α} {s s' : Machine M W}
    {r : Except E α} :
    Ends (tryCatch x f) s r s' ↔
      (∃ a, r = .ok a ∧ Ends x s (.ok a) s') ∨
      ∃ e mid, Ends x s (.error e) mid ∧ Ends (f e) mid r s' := by
  rw [Ends, run_tryCatch]
  constructor
  · intro h
    split at h
    · cases h
    · rename_i e mid hx
      exact .inr ⟨e, mid, hx, h⟩
    · rename_i a mid hx
      cases h
      exact .inl ⟨a, rfl, hx⟩
  · rintro (⟨a, rfl, hx⟩ | ⟨e, mid, hx, hf⟩)
    · rw [show x.run s = _ from hx]
    · rw [show x.run s = _ from hx]
      exact hf

/-- Whether the computation returns or throws, the depths are the same afterwards. -/
def Restores (x : Thread M W U E α) : Prop := ∀ s r s', Ends x s r s' → s'.depths = s.depths

namespace Restores

theorem pure (a : α) : Restores (pure a : Thread M W U E α) := by
  intro s r s' h
  rw [(ends_pure.mp h).2]

theorem throw (e : E) : Restores (throw e : Thread M W U E α) := by
  intro s r s' h
  rw [(ends_throw.mp h).2]

theorem fetch (x : Except U α) : Restores (fetch x : Thread M W U E α) := by
  intro s r s' h
  obtain ⟨a, -, -, rfl⟩ := ends_fetch.mp h
  rfl

theorem world : Restores (world : Thread M W U E W) := by
  intro s r s' h
  rw [(ends_world.mp h).2]

theorem modifyWorld (f : W → W) : Restores (modifyWorld f : Thread M W U E Unit) := by
  intro s r s' h
  rw [(ends_modifyWorld.mp h).2]

theorem bind {x : Thread M W U E α} {f : α → Thread M W U E β} (hx : Restores x)
    (hf : ∀ a, Restores (f a)) : Restores (x >>= f) := by
  intro s r s' h
  rcases ends_bind.mp h with ⟨e, -, h⟩ | ⟨a, mid, h, h'⟩
  · exact hx s _ s' h
  · exact (hf a mid r s' h').trans (hx s _ mid h)

theorem tryCatch {x : Thread M W U E α} {f : E → Thread M W U E α} (hx : Restores x)
    (hf : ∀ e, Restores (f e)) : Restores (tryCatch x f) := by
  intro s r s' h
  rcases ends_tryCatch.mp h with ⟨a, -, h⟩ | ⟨e, mid, h, h'⟩
  · exact hx s _ s' h
  · exact (hf e mid r s' h').trans (hx s _ mid h)

theorem forM {f : α → Thread M W U E Unit} (hf : ∀ a, Restores (f a)) (l : List α) :
    Restores (l.forM f) := by
  induction l with
  | nil => exact pure ()
  | cons a l ih => exact bind (hf a) fun _ => ih

theorem foldlM {f : β → α → Thread M W U E β} (hf : ∀ b a, Restores (f b a)) (l : List α) (b : β) :
    Restores (l.foldlM f b) := by
  induction l generalizing b with
  | nil => exact pure b
  | cons a l ih => exact bind (hf b a) fun b => ih b

end Restores

/-- The computation returns, unless it is undefined. -/
def NeverThrows (x : Thread M W U E α) : Prop := ∀ s r s', Ends x s r s' → ∃ a, r = .ok a

namespace NeverThrows

theorem pure (a : α) : NeverThrows (pure a : Thread M W U E α) := by
  intro s r s' h
  exact ⟨a, (ends_pure.mp h).1⟩

theorem fetch (x : Except U α) : NeverThrows (fetch x : Thread M W U E α) := by
  intro s r s' h
  obtain ⟨a, -, hr, -⟩ := ends_fetch.mp h
  exact ⟨a, hr⟩

theorem world : NeverThrows (world : Thread M W U E W) := by
  intro s r s' h
  exact ⟨s.world, (ends_world.mp h).1⟩

theorem modifyWorld (f : W → W) : NeverThrows (modifyWorld f : Thread M W U E Unit) := by
  intro s r s' h
  exact ⟨(), (ends_modifyWorld.mp h).1⟩

theorem bind {x : Thread M W U E α} {f : α → Thread M W U E β} (hx : NeverThrows x)
    (hf : ∀ a, NeverThrows (f a)) : NeverThrows (x >>= f) := by
  intro s r s' h
  rcases ends_bind.mp h with ⟨e, -, hthrew⟩ | ⟨a, mid, -, hrest⟩
  · obtain ⟨_, ⟨⟩⟩ := hx s _ s' hthrew
  · exact hf a mid r s' hrest

theorem forM {f : α → Thread M W U E Unit} (hf : ∀ a, NeverThrows (f a)) (l : List α) :
    NeverThrows (l.forM f) := by
  induction l with
  | nil => exact pure ()
  | cons a l ih => exact bind (hf a) fun _ => ih

end NeverThrows

section Mutexes

variable [DecidableEq M] {m : M}

theorem NeverThrows.lock : NeverThrows (lock m : Thread M W U E Unit) := by
  rintro s _ _ ⟨⟩
  exact ⟨(), rfl⟩

theorem NeverThrows.unlock : NeverThrows (unlock m : Thread M W U E Unit) := by
  rintro s _ _ ⟨⟩
  exact ⟨(), rfl⟩

theorem NeverThrows.scopedLock {x : Thread M W U E α} (hx : NeverThrows x) :
    NeverThrows (scopedLock m x) := by
  refine .bind .lock fun _ => .bind (fun s r s' h => ?_) fun a => .bind .unlock fun _ => .pure a
  rcases ends_tryCatch.mp h with ⟨a, hr, -⟩ | ⟨e, mid, hthrew, -⟩
  · exact ⟨a, hr⟩
  · obtain ⟨_, ⟨⟩⟩ := hx _ _ _ hthrew

def locked (m : M) (s : Machine M W) : Machine M W :=
  { s with depths := Function.update s.depths m (s.depths m + 1) }

def unlocked (m : M) (s : Machine M W) : Machine M W :=
  { s with depths := Function.update s.depths m (s.depths m - 1) }

@[simp] theorem locked_world (m : M) (s : Machine M W) : (locked m s).world = s.world := rfl

theorem ends_lock_bind {f : Unit → Thread M W U E β} {s s' : Machine M W} {r : Except E β} :
    Ends (lock m >>= f) s r s' ↔ Ends (f ()) (locked m s) r s' := Iff.rfl

theorem ends_unlock_bind {f : Unit → Thread M W U E β} {s s' : Machine M W} {r : Except E β} :
    Ends (unlock m >>= f) s r s' ↔ Ends (f ()) (unlocked m s) r s' := Iff.rfl

theorem unlocked_locked {s mid : Machine M W} (hmid : mid.depths = (locked m s).depths) :
    (unlocked m mid).depths = s.depths := by
  show Function.update mid.depths m (mid.depths m - 1) = s.depths
  rw [hmid]
  simp [locked]

theorem locked_ne (m : M) (s : Machine M W) : (locked m s).depths ≠ s.depths := by
  intro h
  have one : s.depths m + 1 = s.depths m := (Function.update_self _ _ _).symm.trans (congrFun h m)
  omega

theorem Restores.scopedLock {x : Thread M W U E α} (hx : Restores x) :
    Restores (scopedLock m x) := by
  intro s r s' h
  rcases ends_bind.mp (ends_lock_bind.mp h) with ⟨e, -, h⟩ | ⟨a, mid, h, hrest⟩
  · rcases ends_tryCatch.mp h with ⟨_, ⟨⟩, -⟩ | ⟨e, mid, hthrew, hrest⟩
    have hthrow := ends_unlock_bind.mp hrest
    rw [(ends_throw.mp hthrow).2]
    exact unlocked_locked (hx _ _ _ hthrew)
  · have hpure := ends_unlock_bind.mp hrest
    rw [(ends_pure.mp hpure).2]
    rcases ends_tryCatch.mp h with ⟨_, -, hreturned⟩ | ⟨e, mid', -, hrest⟩
    · exact unlocked_locked (hx _ _ _ hreturned)
    · have hthrow := ends_unlock_bind.mp hrest
      cases (ends_throw.mp hthrow).1

/-- A bare pair of `lock` and `unlock` restores the depths exactly when the part between them
returns. -/
theorem restored_iff {x : Thread M W U E α} {f : α → Thread M W U E β} (hx : Restores x)
    (hf : ∀ a, Restores (f a)) {s s' : Machine M W} {r : Except E β}
    (h : Ends (do
      lock m
      let a ← x
      unlock m
      f a) s r s') :
    ∃ r' mid, Ends x (locked m s) r' mid ∧ (s'.depths = s.depths ↔ ∃ a, r' = .ok a) := by
  rcases ends_bind.mp (ends_lock_bind.mp h) with ⟨e, -, hthrew⟩ | ⟨a, mid, hreturned, hrest⟩
  · refine ⟨_, _, hthrew, iff_of_false ?_ nofun⟩
    rw [hx _ _ _ hthrew]
    exact locked_ne m s
  · refine ⟨_, _, hreturned, iff_of_true ?_ ⟨a, rfl⟩⟩
    have hrest := ends_unlock_bind.mp hrest
    rw [hf a _ _ _ hrest]
    exact unlocked_locked (hx _ _ _ hreturned)

theorem Restores.bare {x : Thread M W U E α} {f : α → Thread M W U E β} (hx : Restores x)
    (returns : NeverThrows x) (hf : ∀ a, Restores (f a)) :
    Restores (do
      lock m
      let a ← x
      unlock m
      f a) := by
  intro s r s' h
  obtain ⟨r', mid, hends, hiff⟩ := restored_iff hx hf h
  exact hiff.mpr (returns _ r' mid hends)

end Mutexes

end ProofKit.Depths
