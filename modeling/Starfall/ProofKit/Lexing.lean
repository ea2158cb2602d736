import Mathlib.Data.List.Basic

/-! Lexers that take one lexeme at a time off a text, and quoted literals in which a doubled quote
stands for one.  `Lexes` says what the tokens of a text are, without the fuel of the function. -/

namespace ProofKit.Lexing

variable {α τ : Type*}

/-- Takes a lexeme off a text that is not empty: a token, or `none` for what stands between tokens.
The lexer fails where no lexeme begins. -/
abbrev Lexer (α τ : Type*) := α → List α → Option (Option τ × List α)

/-- The tokens of the text are `ts`. -/
inductive Lexes (next : Lexer α τ) : List α → List τ → Prop
  | nil : Lexes next [] []
  | token {a : α} {s rest : List α} {t : τ} {ts : List τ} :
      next a s = some (some t, rest) → Lexes next rest ts → Lexes next (a :: s) (t :: ts)
  | gap {a : α} {s rest : List α} {ts : List τ} :
      next a s = some (none, rest) → Lexes next rest ts → Lexes next (a :: s) ts

/-- The tokens of a text with at most as many lexemes as the fuel. -/
def lexFuel (next : Lexer α τ) : Nat → List α → Option (List τ)
  | _, [] => some []
  | 0, _ :: _ => none
  | fuel + 1, a :: s =>
    match next a s with
    | some (t, rest) => (lexFuel next fuel rest).map (t.toList ++ ·)
    | none => none

/-- The tokens of a text, each lexeme of which has at least one character. -/
def lex (next : Lexer α τ) (s : List α) : Option (List τ) := lexFuel next s.length s

/-- What is left after a lexeme is no longer than what followed its first character. -/
def Advances (next : Lexer α τ) : Prop :=
  ∀ a s t rest, next a s = some (t, rest) → rest.length ≤ s.length

theorem Lexes.of_lexFuel {next : Lexer α τ} {fuel : Nat} {s : List α} {ts : List τ}
    (h : lexFuel next fuel s = some ts) : Lexes next s ts := by
  induction fuel, s using lexFuel.induct next generalizing ts with
  | case1 fuel =>
    rw [lexFuel] at h
    cases h
    exact .nil
  | case2 a s =>
    rw [lexFuel] at h
    cases h
  | case3 fuel a s t rest hnext ih =>
    rw [lexFuel, hnext] at h
    obtain ⟨ts', hrest, rfl⟩ := Option.map_eq_some_iff.mp h
    cases t with
    | some t => exact .token hnext (ih hrest)
    | none => exact .gap hnext (ih hrest)
  | case4 fuel a s hnext =>
    rw [lexFuel, hnext] at h
    cases h

theorem Lexes.lexFuel_eq {next : Lexer α τ} (advances : Advances next) {s : List α} {ts : List τ}
    (h : Lexes next s ts) {fuel : Nat} (enough : s.length ≤ fuel) :
    lexFuel next fuel s = some ts := by
  induction h generalizing fuel with
  | nil => rw [lexFuel]
  | @token a s rest t ts hnext _ ih =>
    cases fuel with
    | zero => cases enough
    | succ fuel =>
      have hrest := ih (Nat.le_trans (advances a s _ _ hnext) (Nat.le_of_succ_le_succ enough))
      simp only [lexFuel, hnext, hrest, Option.map_some, Option.toList_some, List.singleton_append]
  | @gap a s rest ts hnext _ ih =>
    cases fuel with
    | zero => cases enough
    | succ fuel =>
      have hrest := ih (Nat.le_trans (advances a s _ _ hnext) (Nat.le_of_succ_le_succ enough))
      simp only [lexFuel, hnext, hrest, Option.map_some, Option.toList_none, List.nil_append]

theorem lex_eq_some_iff {next : Lexer α τ} (advances : Advances next) {s : List α} {ts : List τ} :
    lex next s = some ts ↔ Lexes next s ts :=
  ⟨Lexes.of_lexFuel, fun h => h.lexFuel_eq advances (Nat.le_refl _)⟩

theorem Lexes.token_iff {next : Lexer α τ} {a : α} {s rest : List α} {t t' : τ} {ts : List τ}
    (h : next a s = some (some t, rest)) :
    Lexes next (a :: s) (t' :: ts) ↔ t' = t ∧ Lexes next rest ts := by
  constructor
  · intro hlexes
    cases hlexes with
    | token hnext hrest =>
      rw [h] at hnext
      cases hnext
      exact ⟨rfl, hrest⟩
    | gap hnext _ =>
      rw [h] at hnext
      cases hnext
  · rintro ⟨rfl, hrest⟩
    exact .token h hrest

theorem Lexes.gap_iff {next : Lexer α τ} {a : α} {s rest : List α} {ts : List τ}
    (h : next a s = some (none, rest)) : Lexes next (a :: s) ts ↔ Lexes next rest ts := by
  constructor
  · intro hlexes
    cases hlexes with
    | token hnext _ =>
      rw [h] at hnext
      cases hnext
    | gap hnext hrest =>
      rw [h] at hnext
      cases hnext
      exact hrest
  · exact .gap h

theorem Lexes.not_of_none {next : Lexer α τ} {a : α} {s : List α} {ts : List τ}
    (h : next a s = none) : ¬Lexes next (a :: s) ts := by
  intro hlexes
  cases hlexes with
  | token hnext _ =>
    rw [h] at hnext
    cases hnext
  | gap hnext _ =>
    rw [h] at hnext
    cases hnext

section Quoted

variable [DecidableEq α] {q : α}

/-- The value with every quote doubled. -/
def double (q : α) : List α → List α
  | [] => []
  | a :: v => if a = q then q :: q :: double q v else a :: double q v

/-- The value of the literal whose opening quote is before the text, and what follows it. -/
def literal (q : α) : List α → Option (List α × List α)
  | [] => none
  | [a] => if a = q then some ([], []) else none
  | a :: b :: s =>
    if a = q then
      if b = q then (literal q s).map fun r => (q :: r.1, r.2) else some ([], b :: s)
    else (literal q (b :: s)).map fun r => (a :: r.1, r.2)

@[simp] theorem double_quote (v : List α) : double q (q :: v) = q :: q :: double q v := by
  rw [double, if_pos rfl]

theorem double_of_ne {a : α} (ha : a ≠ q) (v : List α) :
    double q (a :: v) = a :: double q v := by
  rw [double, if_neg ha]

theorem double_of_not_mem {v : List α} (hv : q ∉ v) : double q v = v := by
  induction v with
  | nil => rfl
  | cons a v ih =>
    rw [List.mem_cons, not_or] at hv
    rw [double_of_ne (Ne.symm hv.1), ih hv.2]

theorem literal_quote (s : List α) :
    literal q (q :: q :: s) = (literal q s).map fun r => (q :: r.1, r.2) := by
  rw [literal, if_pos rfl, if_pos rfl]

theorem literal_end {s : List α} (hs : s.head? ≠ some q) : literal q (q :: s) = some ([], s) := by
  cases s with
  | nil => rw [literal, if_pos rfl]
  | cons b s => rw [literal, if_pos rfl, if_neg fun hb => hs (by rw [hb]; rfl)]

theorem literal_of_ne {a : α} (ha : a ≠ q) (s : List α) :
    literal q (a :: s) = (literal q s).map fun r => (a :: r.1, r.2) := by
  cases s with
  | nil => simp only [literal, if_neg ha, Option.map_none]
  | cons b s => rw [literal, if_neg ha]

/-- A literal whose quotes are doubled is read back, whatever its value is. -/
theorem literal_double (v : List α) {rest : List α} (hrest : rest.head? ≠ some q) :
    literal q (double q v ++ q :: rest) = some (v, rest) := by
  induction v with
  | nil => exact literal_end hrest
  | cons a v ih =>
    by_cases ha : a = q
    · subst ha
      rw [double_quote, List.cons_append, List.cons_append, literal_quote, ih, Option.map_some]
    · rw [double_of_ne ha, List.cons_append, literal_of_ne ha, ih, Option.map_some]

/-- What is read as a literal is its value with the quotes doubled, and a quote that is not. -/
theorem literal_spec {s v rest : List α} (h : literal q s = some (v, rest)) :
    s = double q v ++ q :: rest ∧ rest.head? ≠ some q := by
  induction s using literal.induct q generalizing v with
  | case1 => cases h
  | case2 =>
    rw [literal_end (by simp)] at h
    cases h
    exact ⟨rfl, by simp⟩
  | case3 a ha =>
    rw [literal_of_ne ha] at h
    cases h
  | case4 s ih =>
    rw [literal_quote] at h
    obtain ⟨⟨v, rest⟩, hs, h⟩ := Option.map_eq_some_iff.mp h
    cases h
    obtain ⟨rfl, hrest⟩ := ih hs
    exact ⟨by rw [double_quote]; rfl, hrest⟩
  | case5 b s hb =>
    have hhead : (b :: s).head? ≠ some q := fun h => hb (Option.some.inj h)
    rw [literal_end hhead] at h
    cases h
    exact ⟨rfl, hhead⟩
  | case6 a b s ha ih =>
    rw [literal_of_ne ha] at h
    obtain ⟨⟨v, rest⟩, hs, h⟩ := Option.map_eq_some_iff.mp h
    cases h
    obtain ⟨hs, hrest⟩ := ih hs
    exact ⟨by rw [double_of_ne ha, hs]; rfl, hrest⟩

theorem literal_length {s v rest : List α} (h : literal q s = some (v, rest)) :
    rest.length < s.length := by
  rw [(literal_spec h).1, List.length_append, List.length_cons]
  omega

theorem literal_eq_some_iff {s v rest : List α} :
    literal q s = some (v, rest) ↔ s = double q v ++ q :: rest ∧ rest.head? ≠ some q :=
  ⟨literal_spec, fun ⟨hs, hrest⟩ => hs ▸ literal_double v hrest⟩

/-- No value begins like its doubled text with more quotes before it, when both end with a closing
quote. -/
theorem quotes_double_ne (k : Nat) (v rest : List α) {t : List α} (ht : t.head? ≠ some q) :
    List.replicate (k + 1) q ++ (double q v ++ q :: rest) ≠ v ++ q :: t := by
  induction v generalizing k with
  | nil =>
    rw [List.replicate_succ, List.cons_append, List.nil_append, ne_eq, List.cons_inj_right]
    cases k with
    | zero => exact fun h => ht (by rw [← h]; rfl)
    | succ k => exact fun h => ht (by rw [← h, List.replicate_succ]; rfl)
  | cons a v ih =>
    rw [List.replicate_succ, List.cons_append, List.cons_append]
    intro h
    obtain ⟨rfl, h⟩ := List.cons.inj h
    refine ih (k + 1) ?_
    rw [← h, double_quote, List.replicate_succ', List.replicate_succ']
    simp only [List.append_assoc, List.cons_append, List.nil_append]

theorem not_mem_of_double {v rest t : List α} (ht : t.head? ≠ some q)
    (h : double q v ++ q :: rest = v ++ q :: t) : q ∉ v := by
  induction v with
  | nil => exact List.not_mem_nil
  | cons a v ih =>
    by_cases ha : a = q
    · subst ha
      rw [double_quote] at h
      exact absurd (List.cons.inj h).2 (quotes_double_ne 0 v rest ht)
    · rw [double_of_ne ha] at h
      rw [List.mem_cons, not_or]
      exact ⟨Ne.symm ha, ih (List.cons.inj h).2⟩

/-- A value that is put between quotes as it is, is read back exactly when no quote is in it. -/
theorem literal_raw_iff {v t rest : List α} (ht : t.head? ≠ some q) :
    literal q (v ++ q :: t) = some (v, rest) ↔ q ∉ v ∧ rest = t := by
  rw [literal_eq_some_iff]
  constructor
  · rintro ⟨h, -⟩
    have hv := not_mem_of_double ht h.symm
    rw [double_of_not_mem hv] at h
    exact ⟨hv, (List.cons.inj (List.append_cancel_left h)).2.symm⟩
  · rintro ⟨hv, rfl⟩
    rw [double_of_not_mem hv]
    exact ⟨rfl, ht⟩

end Quoted

end ProofKit.Lexing
