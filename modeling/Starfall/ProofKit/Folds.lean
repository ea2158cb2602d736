import Mathlib.Data.List.Forall2

/-! Folds and maps over lists whose steps may fail, loops that collect, and lists that are related
element by element. -/

namespace ProofKit.Folds

universe u v

variable {α : Type v} {β σ : Type u}

theorem mapM_eq_some {f : α → Option β} {as : List α} {bs : List β} :
    as.mapM f = some bs ↔ List.Forall₂ (fun a b => f a = some b) as bs := by
  induction as generalizing bs with
  | nil => simp [eq_comm]
  | cons a as ih =>
    rw [List.mapM_cons]
    constructor
    · intro h
      obtain ⟨b, hb, h⟩ := Option.bind_eq_some_iff.mp h
      obtain ⟨rest, hrest, h⟩ := Option.bind_eq_some_iff.mp h
      obtain rfl := Option.some.inj h
      exact .cons hb (ih.mp hrest)
    · rintro (_ | ⟨hb, hrest⟩)
      rw [hb, ih.mpr hrest]
      rfl

theorem isSome_mapM {f : α → Option β} {as : List α} :
    (as.mapM f).isSome ↔ ∀ a ∈ as, (f a).isSome := by
  induction as with
  | nil => simp
  | cons a as ih =>
    rw [List.mapM_cons, List.forall_mem_cons, ← ih]
    cases f a with
    | none => simp
    | some b => cases as.mapM f <;> simp

theorem flatMapM_append {f : α → Option (List β)} (as rest : List α) :
    (as ++ rest).flatMapM f = (do some ((← as.flatMapM f) ++ (← rest.flatMapM f))) := by
  induction as with
  | nil => simp
  | cons a as ih =>
    rw [List.cons_append, List.flatMapM_cons, List.flatMapM_cons, ih]
    cases f a with
    | none => rfl
    | some bs => cases as.flatMapM f <;> cases rest.flatMapM f <;> simp

theorem flatMapM_map {γ : Type v} (f : γ → α) (g : α → Option (List β)) (as : List γ) :
    (as.map f).flatMapM g = as.flatMapM fun a => g (f a) := by
  induction as with
  | nil => rfl
  | cons a as ih => rw [List.map_cons, List.flatMapM_cons, List.flatMapM_cons, ih]

theorem flatMapM_some {f : α → Option (List β)} {g : α → List β} {as : List α}
    (h : ∀ a ∈ as, f a = some (g a)) : as.flatMapM f = some (as.flatMap g) := by
  induction as with
  | nil => rfl
  | cons a as ih =>
    rw [List.forall_mem_cons] at h
    rw [List.flatMapM_cons, h.1, ih h.2]
    rfl

theorem isSome_flatMapM {f : α → Option (List β)} {as : List α} :
    (as.flatMapM f).isSome ↔ ∀ a ∈ as, (f a).isSome := by
  induction as with
  | nil => simp
  | cons a as ih =>
    rw [List.flatMapM_cons, List.forall_mem_cons, ← ih]
    cases f a with
    | none => simp
    | some bs => cases as.flatMapM f <;> simp

theorem filterAuxM_map {ι γ : Type} (f : ι → γ) {p : γ → Option Bool} {q : ι → Bool}
    {as : List ι} (h : ∀ a ∈ as, p (f a) = some (q a)) (acc : List γ) :
    List.filterAuxM p (as.map f) acc = some (((as.filter q).map f).reverse ++ acc) := by
  induction as generalizing acc with
  | nil => rfl
  | cons a as ih =>
    rw [List.forall_mem_cons] at h
    rw [List.map_cons, List.filterAuxM, h.1]
    show List.filterAuxM p (as.map f) (cond (q a) (f a :: acc) acc) = _
    rw [ih h.2, List.filter_cons]
    cases q a <;> simp

theorem filterM_map {ι γ : Type} (f : ι → γ) {p : γ → Option Bool} {q : ι → Bool} {as : List ι}
    (h : ∀ a ∈ as, p (f a) = some (q a)) :
    (as.map f).filterM p = some ((as.filter q).map f) := by
  rw [List.filterM, filterAuxM_map f h, List.append_nil]
  show some _ = _
  rw [List.reverse_reverse]

theorem mapM_zipIdx {γ : Type v} (f : α → γ) {g : γ × Nat → Option β} (k : Nat → α → β) (n : Nat)
    {as : List α} (h : ∀ i, ∀ a ∈ as, g (f a, n + i) = some (k i a)) :
    ((as.map f).zipIdx n).mapM g = some (as.mapIdx k) := by
  induction as generalizing n k with
  | nil => rfl
  | cons a as ih =>
    have hfirst : g (f a, n) = some (k 0 a) := h 0 a List.mem_cons_self
    have hrest := ih (fun i => k (i + 1)) (n + 1) fun i a ha => by
      rw [Nat.add_assoc, Nat.add_comm 1]
      exact h (i + 1) a (List.mem_cons_of_mem _ ha)
    rw [List.map_cons, List.zipIdx_cons, List.mapM_cons, hfirst, hrest, List.mapIdx_cons]
    rfl

/-- A step that first reads its element, with a reading that does not look at the state. -/
theorem foldlM_bind (g : α → Option β) (f : σ → β → Option σ) (as : List α) (s : σ) :
    as.foldlM (fun s a => g a >>= f s) s = as.mapM g >>= fun bs => bs.foldlM f s := by
  induction as generalizing s with
  | nil => rfl
  | cons a as ih =>
    rw [List.foldlM_cons, List.mapM_cons]
    cases g a with
    | none => rfl
    | some b =>
      show (f s b >>= fun s' => as.foldlM (fun s a => g a >>= f s) s') = _
      simp only [ih]
      cases as.mapM g with
      | none => cases f s b <;> rfl
      | some bs => rfl

theorem foldlM_some (f : σ → α → σ) (as : List α) (s : σ) :
    as.foldlM (fun s a => some (f s a)) s = some (as.foldl f s) :=
  List.foldlM_pure (m := Option)

/-- What one step keeps and shows, of a fold that does not fail. -/
theorem foldlM_run {f : σ → α → Option σ} {I : σ → Prop} {Q : α → Prop} {as : List α} {s s' : σ}
    (hstep : ∀ a ∈ as, ∀ s s', I s → f s a = some s' → I s' ∧ Q a) (hs : I s)
    (h : as.foldlM f s = some s') : I s' ∧ ∀ a ∈ as, Q a := by
  induction as generalizing s with
  | nil =>
    obtain rfl := Option.some.inj h
    exact ⟨hs, by simp⟩
  | cons a as ih =>
    rw [List.foldlM_cons] at h
    obtain ⟨next, hnext, h⟩ := Option.bind_eq_some_iff.mp h
    rw [List.forall_mem_cons] at hstep ⊢
    obtain ⟨hkept, hshown⟩ := hstep.1 s next hs hnext
    obtain ⟨hend, hrest⟩ := ih hstep.2 hkept h
    exact ⟨hend, hshown, hrest⟩

/-- A loop with a state that collects what its body returns. -/
def collect {S A B : Type} (body : S → A → S × Option B) : S → List A → S × List B
  | s, [] => (s, [])
  | s, a :: as =>
    let (s, b) := body s a
    let (s, bs) := collect body s as
    (s, b.toList ++ bs)

theorem collect_cons {S A B : Type} (body : S → A → S × Option B) (s : S) (a : A) (as : List A) :
    collect body s (a :: as) = ((collect body (body s a).1 as).1,
      (body s a).2.toList ++ (collect body (body s a).1 as).2) := rfl

theorem collect_append {S A B : Type} (body : S → A → S × Option B) (s : S) (as bs : List A) :
    collect body s (as ++ bs) = ((collect body (collect body s as).1 bs).1,
      (collect body s as).2 ++ (collect body (collect body s as).1 bs).2) := by
  induction as generalizing s with
  | nil => rfl
  | cons a as ih => rw [List.cons_append, collect_cons, collect_cons, ih, List.append_assoc]

/-- A loop whose body is a loop over what the first one visits, and that leaves out what stays
empty. -/
theorem collect_flatMap {S A B C D : Type} {body : S → A → S × Option B}
    {inner : S → C → S × Option D} {children : A → List C} {pushed : B → List D}
    (hbody : ∀ s a, ((body s a).1, (body s a).2.toList.flatMap pushed) =
      collect inner s (children a)) (s : S) (as : List A) :
    ((collect body s as).1, (collect body s as).2.flatMap pushed) =
      collect inner s (as.flatMap children) := by
  induction as generalizing s with
  | nil => rfl
  | cons a as ih =>
    have hrest := ih (body s a).1
    rw [List.flatMap_cons, collect_append, collect_cons, ← hbody, List.flatMap_append, ← hrest]

theorem flatMap_pushed {A B : Type} (bs : List B) (make : List B → A) (pushed : A → List B)
    (h : pushed (make bs) = bs) :
    (if bs.length > 0 then some (make bs) else none).toList.flatMap pushed = bs := by
  cases bs with
  | nil => rfl
  | cons b bs => simpa using h

theorem forall₂_mapIdx {A B C : Type} {R : A → B → Prop} {Q : A → C → Prop} {f : Nat → B → C}
    (hf : ∀ i a b, R a b → Q a (f i b)) {as : List A} {bs : List B} (h : List.Forall₂ R as bs) :
    List.Forall₂ Q as (bs.mapIdx f) := by
  induction h generalizing f with
  | nil => exact .nil
  | cons hab _ ih =>
    rw [List.mapIdx_cons]
    exact .cons (hf 0 _ _ hab) (ih fun i => hf (i + 1))

theorem forall₂_iff {A B : Type} {R Q : A → B → Prop} {P : A → Prop}
    (h : ∀ a b, R a b → (Q a b ↔ P a)) {as : List A} {bs : List B} (hR : List.Forall₂ R as bs) :
    List.Forall₂ Q as bs ↔ ∀ a ∈ as, P a := by
  induction hR with
  | nil => simp
  | cons hab _ ih => rw [List.forall₂_cons, List.forall_mem_cons, h _ _ hab, ih]

/-- A fold that keeps the state or takes the value of the element, whichever is before the other,
ends with one that is before all. -/
theorem foldl_extreme {R A : Type} {r : R → R → Prop} (hrefl : ∀ x, r x x)
    (htrans : ∀ x y z, r x y → r y z → r x z) {pick : R → A → R} {value : A → R}
    (hpick : ∀ s a, (pick s a = s ∨ pick s a = value a) ∧ r (pick s a) s ∧ r (pick s a) (value a))
    (as : List A) (s : R) :
    (as.foldl pick s = s ∨ ∃ a ∈ as, as.foldl pick s = value a) ∧ r (as.foldl pick s) s ∧
      ∀ a ∈ as, r (as.foldl pick s) (value a) := by
  induction as generalizing s with
  | nil => exact ⟨.inl rfl, hrefl s, by simp⟩
  | cons a as ih =>
    obtain ⟨hchoice, hstate, hrest⟩ := ih (pick s a)
    obtain ⟨hfirst, hbefore, hvalue⟩ := hpick s a
    rw [List.foldl_cons, List.forall_mem_cons]
    refine ⟨?_, htrans _ _ _ hstate hbefore, htrans _ _ _ hstate hvalue, hrest⟩
    rcases hchoice with hsame | ⟨b, hb, hother⟩
    · rw [hsame]
      exact hfirst.imp_right fun htaken => ⟨a, List.mem_cons_self, htaken⟩
    · exact .inr ⟨b, List.mem_cons_of_mem _ hb, hother⟩

theorem map_mapIdx {A B C : Type} (g : B → C) (f : Nat → A → B) (as : List A) :
    (as.mapIdx f).map g = as.mapIdx fun i a => g (f i a) := by
  rw [List.mapIdx_eq_zipIdx_map, List.mapIdx_eq_zipIdx_map, List.map_map]
  rfl

theorem flatMap_ite {A B : Type} (p : A → Prop) [DecidablePred p] (f : A → List B) (as : List A) :
    (as.flatMap fun a => if p a then f a else []) = (as.filter fun a => p a).flatMap f := by
  induction as with
  | nil => rfl
  | cons a as ih =>
    rw [List.flatMap_cons, List.filter_cons, ih]
    by_cases h : p a <;> simp [h]

end ProofKit.Folds
