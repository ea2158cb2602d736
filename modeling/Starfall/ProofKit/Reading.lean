import Mathlib.Data.List.Basic

/-! Readers that take values from a sequence at a moving position and may fail.  `Reads` says that a
reader takes exactly the given elements wherever they stand in a sequence.  It holds of a reader
built with binds and counted loops when it holds of the parts. -/

namespace ProofKit.Reading

/-- A sequence with the position of the next element to read. -/
structure Cursor (β : Type) where
  data : List β
  it : Nat
  deriving DecidableEq, Repr

/-- A reader returns a value and the cursor after it, or fails. -/
abbrev Reader (β ε α : Type) := StateT (Cursor β) (Except ε) α

variable {β ε α γ : Type}

namespace Cursor

def start (data : List β) : Cursor β := ⟨data, 0⟩

def rest (c : Cursor β) : List β := c.data.drop c.it

def advance (c : Cursor β) (n : Nat) : Cursor β := { c with it := c.it + n }

@[simp] theorem start_data (data : List β) : (start data).data = data := rfl

@[simp] theorem start_it (data : List β) : (start data).it = 0 := rfl

@[simp] theorem rest_start (data : List β) : (start data).rest = data := rfl

@[simp] theorem advance_data (c : Cursor β) (n : Nat) : (c.advance n).data = c.data := rfl

@[simp] theorem advance_it (c : Cursor β) (n : Nat) : (c.advance n).it = c.it + n := rfl

@[simp] theorem advance_zero (c : Cursor β) : c.advance 0 = c := rfl

@[simp] theorem advance_advance (c : Cursor β) (m n : Nat) :
    (c.advance m).advance n = c.advance (m + n) := by
  simp [advance, Nat.add_assoc]

@[simp] theorem rest_advance (c : Cursor β) (n : Nat) : (c.advance n).rest = c.rest.drop n := by
  simp [rest, advance]

theorem length_rest (c : Cursor β) : c.rest.length = c.data.length - c.it := by
  simp [rest]

theorem rest_getElem? (c : Cursor β) (i : Nat) : c.rest[i]? = c.data[c.it + i]? := by
  simp [rest]

end Cursor

theorem bind_of_ok {r : Reader β ε α} {f : α → Reader β ε γ} {c c' : Cursor β} {a : α}
    (h : r c = .ok (a, c')) : (r >>= f) c = f a c' := by
  show Except.bind (r c) _ = _
  rw [h]
  rfl

theorem bind_of_error {r : Reader β ε α} {f : α → Reader β ε γ} {c : Cursor β} {e : ε}
    (h : r c = .error e) : (r >>= f) c = .error e := by
  show Except.bind (r c) _ = _
  rw [h]
  rfl

theorem bind_eq_ok {r : Reader β ε α} {f : α → Reader β ε γ} {c c'' : Cursor β} {b : γ}
    (h : (r >>= f) c = .ok (b, c'')) :
    ∃ a c', r c = .ok (a, c') ∧ f a c' = .ok (b, c'') := by
  cases hr : r c with
  | error e =>
    rw [bind_of_error hr] at h
    cases h
  | ok p =>
    rw [bind_of_ok (f := f) hr] at h
    exact ⟨p.1, p.2, rfl, h⟩

theorem pure_apply (a : α) (c : Cursor β) : (pure a : Reader β ε α) c = .ok (a, c) := rfl

theorem except_bind_of_ok {x : Except ε α} {f : α → Except ε γ} {a : α} (h : x = .ok a) :
    (x >>= f) = f a := by
  rw [h]
  rfl

theorem except_bind_eq_ok {x : Except ε α} {f : α → Except ε γ} {b : γ} (h : (x >>= f) = .ok b) :
    ∃ a, x = .ok a ∧ f a = .ok b := by
  cases x with
  | error e => cases h
  | ok a => exact ⟨a, rfl, h⟩

/-- What holds of every value that is read holds of the one that is. -/
theorem forall_ok_iff {x : Except ε (α × γ)} {a : α} {c : γ} (h : x = .ok (a, c))
    {P : α → γ → Prop} : (∀ a' c', x = .ok (a', c') → P a' c') ↔ P a c := by
  constructor
  · exact fun hP => hP a c h
  · intro hP a' c' h'
    cases h.symm.trans h'
    exact hP

/-- Reads with `r` as many times as `n` says, and collects the values in order. -/
def repeatRead (r : Reader β ε α) : Nat → Reader β ε (List α)
  | 0 => pure []
  | n + 1 => do
    let a ← r
    let as ← repeatRead r n
    pure (a :: as)

theorem repeatRead_length {r : Reader β ε α} {n : Nat} {c c' : Cursor β} {as : List α}
    (h : repeatRead r n c = .ok (as, c')) : as.length = n := by
  induction n generalizing c as with
  | zero =>
    cases h
    rfl
  | succ n ih =>
    obtain ⟨a, c1, -, h⟩ := bind_eq_ok h
    obtain ⟨as', c2, hrest, h⟩ := bind_eq_ok h
    cases h
    simp [ih hrest]

theorem repeatRead_all {r : Reader β ε α} {P : α → Prop}
    (h : ∀ {c a c'}, r c = .ok (a, c') → P a) {n : Nat} {c c' : Cursor β} {as : List α}
    (hread : repeatRead r n c = .ok (as, c')) : ∀ a ∈ as, P a := by
  induction n generalizing c as with
  | zero =>
    cases hread
    simp
  | succ n ih =>
    obtain ⟨a, c1, ha, hread⟩ := bind_eq_ok hread
    obtain ⟨as', c2, has, hread⟩ := bind_eq_ok hread
    cases hread
    intro b hb
    rcases List.mem_cons.mp hb with rfl | hb
    · exact h ha
    · exact ih has b hb

/-- Reads with `step` as many times as `n` says, and updates a state in each round. -/
def repeatUpdate {σ : Type} (step : σ → Reader β ε σ) : Nat → σ → Reader β ε σ
  | 0, s => pure s
  | n + 1, s => do
    let s ← step s
    repeatUpdate step n s

theorem repeatUpdate_preserves {σ : Type} {step : σ → Reader β ε σ} {I : σ → Prop}
    (h : ∀ {s c s' c'}, I s → step s c = .ok (s', c') → I s') {n : Nat} {s s' : σ}
    {c c' : Cursor β} (hs : I s) (hread : repeatUpdate step n s c = .ok (s', c')) : I s' := by
  induction n generalizing s c with
  | zero =>
    cases hread
    exact hs
  | succ n ih =>
    obtain ⟨mid, c1, hstep, hread⟩ := bind_eq_ok hread
    exact ih (h hs hstep) hread

/-- `r` moves the cursor by at most `k`. -/
def MovesAtMost (k : Nat) (r : Reader β ε α) : Prop :=
  ∀ c a c', r c = .ok (a, c') → c'.it ≤ c.it + k

namespace MovesAtMost

theorem pure (a : α) : MovesAtMost 0 (Pure.pure a : Reader β ε α) := by
  intro c b c' h
  cases h
  exact Nat.le_refl _

theorem bind {k l : Nat} {r : Reader β ε α} {f : α → Reader β ε γ} (h1 : MovesAtMost k r)
    (h2 : ∀ a, MovesAtMost l (f a)) : MovesAtMost (k + l) (r >>= f) := by
  intro c b c' h
  obtain ⟨a, mid, hr, hf⟩ := bind_eq_ok h
  have := h1 c a mid hr
  have := h2 a mid b c' hf
  omega

theorem repeatRead {k : Nat} {r : Reader β ε α} (h : MovesAtMost k r) (n : Nat) :
    MovesAtMost (n * k) (repeatRead r n) := by
  induction n with
  | zero =>
    rw [Nat.zero_mul]
    exact pure []
  | succ n ih =>
    have step := h.bind fun a => ih.bind fun as => pure (a :: as)
    rw [Nat.add_zero, Nat.add_comm, ← Nat.succ_mul] at step
    exact step

end MovesAtMost

/-- `r` takes `elems` and returns `a`, whatever follows `elems`. -/
def Reads (r : Reader β ε α) (elems : List β) (a : α) : Prop :=
  ∀ c suffix, c.rest = elems ++ suffix → r c = .ok (a, c.advance elems.length)

namespace Reads

theorem pure (a : α) : Reads (Pure.pure a : Reader β ε α) [] a := fun _ _ _ => rfl

theorem bind {r : Reader β ε α} {f : α → Reader β ε γ} {first second : List β} {a : α} {b : γ}
    (h1 : Reads r first a) (h2 : Reads (f a) second b) : Reads (r >>= f) (first ++ second) b := by
  intro c suffix hc
  rw [List.append_assoc] at hc
  rw [bind_of_ok (h1 c _ hc), h2 (c.advance first.length) suffix (by simp [hc])]
  simp

theorem bind_pure {r : Reader β ε α} {f : α → γ} {elems : List β} {a : α} (h : Reads r elems a) :
    Reads (r >>= fun a => Pure.pure (f a)) elems (f a) := by
  intro c suffix hc
  rw [bind_of_ok (h c suffix hc), pure_apply]

/-- A counted loop reads the concatenation of what its rounds read. -/
theorem repeatRead_map {r : Reader β ε α} {enc : γ → List β} {view : γ → α} {elems : List γ}
    (h : ∀ a ∈ elems, Reads r (enc a) (view a)) :
    Reads (Reading.repeatRead r elems.length) (elems.flatMap enc) (elems.map view) := by
  induction elems with
  | nil => exact Reads.pure []
  | cons a elems ih =>
    have tail := ih fun b hb => h b (List.mem_cons_of_mem _ hb)
    exact (h a List.mem_cons_self).bind tail.bind_pure

theorem repeatRead {r : Reader β ε α} {enc : α → List β} {as : List α}
    (h : ∀ a ∈ as, Reads r (enc a) a) :
    Reads (Reading.repeatRead r as.length) (as.flatMap enc) as := by
  have mapped : Reads (Reading.repeatRead r as.length) (as.flatMap enc) (as.map id) :=
    repeatRead_map h
  rwa [List.map_id] at mapped

theorem repeatUpdate {σ : Type} {step : σ → Reader β ε σ} {enc : α → List β} {f : σ → α → σ}
    {as : List α} (h : ∀ a ∈ as, ∀ s, Reads (step s) (enc a) (f s a)) (s : σ) :
    Reads (Reading.repeatUpdate step as.length s) (as.flatMap enc) (as.foldl f s) := by
  induction as generalizing s with
  | nil => exact Reads.pure s
  | cons a as ih =>
    have tail := ih (fun b hb => h b (List.mem_cons_of_mem _ hb)) (f s a)
    exact (h a List.mem_cons_self s).bind tail

/-- From the start of a sequence, a reader of its first elements stops after them. -/
theorem start {r : Reader β ε α} {elems : List β} {a : α} (h : Reads r elems a)
    (suffix : List β) :
    r (Cursor.start (elems ++ suffix)) =
      .ok (a, (Cursor.start (elems ++ suffix)).advance elems.length) :=
  h _ suffix rfl

end Reads

/-- From this cursor, what is returned meets `Q` and what is thrown meets `E`. -/
def Yields (r : Reader β ε α) (c : Cursor β) (Q : α → Cursor β → Prop) (E : ε → Prop) : Prop :=
  match r c with
  | .ok (a, c') => Q a c'
  | .error e => E e

namespace Yields

variable {r : Reader β ε α} {c : Cursor β} {Q : α → Cursor β → Prop} {E : ε → Prop}

theorem of_ok {a : α} {c' : Cursor β} (h : r c = .ok (a, c')) (hQ : Q a c') : Yields r c Q E := by
  rw [Yields, h]
  exact hQ

theorem of_error {e : ε} (h : r c = .error e) (hE : E e) : Yields r c Q E := by
  rw [Yields, h]
  exact hE

theorem ok {a : α} {c' : Cursor β} (h : Yields r c Q E) (hr : r c = .ok (a, c')) : Q a c' := by
  rwa [Yields, hr] at h

theorem error {e : ε} (h : Yields r c Q E) (hr : r c = .error e) : E e := by
  rwa [Yields, hr] at h

theorem mono {Q' : α → Cursor β → Prop} (h : Yields r c Q E) (hQ : ∀ a c', Q a c' → Q' a c') :
    Yields r c Q' E := by
  rw [Yields] at h ⊢
  split at h
  · exact hQ _ _ h
  · exact h

theorem pure {a : α} (h : Q a c) : Yields (Pure.pure a : Reader β ε α) c Q E := h

theorem bind {f : α → Reader β ε γ} {Q' : γ → Cursor β → Prop} (h : Yields r c Q E)
    (hf : ∀ a c', Q a c' → Yields (f a) c' Q' E) : Yields (r >>= f) c Q' E := by
  cases hr : r c with
  | error e => exact of_error (bind_of_error hr) (h.error hr)
  | ok p =>
    obtain ⟨a, c'⟩ := p
    have hnext := hf a c' (h.ok hr)
    rwa [Yields, bind_of_ok hr]

theorem map {f : α → γ} {Q' : γ → Cursor β → Prop} (h : Yields r c Q E)
    (hf : ∀ a c', Q a c' → Q' (f a) c') : Yields (f <$> r) c Q' E := by
  rw [map_eq_pure_bind]
  exact h.bind fun a c' ha => hf a c' ha

end Yields

end ProofKit.Reading
