import Mathlib.Data.List.Basic

/-! Runs of systems whose steps carry labels.  A run records the labels of its steps in order, so
that an invariant can speak about everything that happened before a state. -/

namespace ProofKit.Runs

/-- A system with its initial states and its labelled steps. -/
structure System (S L : Type*) where
  init : S → Prop
  step : S → L → S → Prop

/-- The states that a system reaches, each with the labels of the steps that led to it. -/
inductive System.Run {S L : Type*} (sys : System S L) : List L → S → Prop
  | nil {s : S} : sys.init s → sys.Run [] s
  | snoc {ls : List L} {s s' : S} {l : L} :
      sys.Run ls s → sys.step s l s' → sys.Run (ls ++ [l]) s'

namespace System

variable {S L : Type*} {sys : System S L}

/-- What holds initially and survives every step holds after every run. -/
theorem Run.invariant {I : List L → S → Prop} (init : ∀ s, sys.init s → I [] s)
    (step : ∀ ls s l s', sys.Run ls s → I ls s → sys.step s l s' → I (ls ++ [l]) s')
    {ls : List L} {s : S} (h : sys.Run ls s) : I ls s := by
  induction h with
  | nil h => exact init _ h
  | snoc run h ih => exact step _ _ _ _ run ih h

/-- The system whose steps all meet a condition on the state before them and on their label. -/
def restrict (sys : System S L) (good : S → L → Prop) : System S L where
  init := sys.init
  step s l s' := good s l ∧ sys.step s l s'

theorem Run.of_restrict {good : S → L → Prop} {ls : List L} {s : S}
    (h : (sys.restrict good).Run ls s) : sys.Run ls s := by
  induction h with
  | nil h => exact .nil h
  | snoc _ h ih => exact .snoc ih h.2

/-- The state after the labels `ls` for a step given as a partial function. -/
def exec (next : S → L → Option S) : S → List L → Option S
  | s, [] => some s
  | s, l :: ls => (next s l).bind fun s' => exec next s' ls

theorem exec_cons {next : S → L → Option S} {s mid s' : S} {l : L} {ls : List L}
    (first : next s l = some mid) (rest : exec next mid ls = some s') :
    exec next s (l :: ls) = some s' := by
  rw [exec, first, Option.bind_some, rest]

theorem exec_append {next : S → L → Option S} {s s' : S} {ls : List L}
    (h : exec next s ls = some s') (ls' : List L) : exec next s (ls ++ ls') = exec next s' ls' := by
  induction ls generalizing s with
  | nil =>
    cases h
    rfl
  | cons l ls ih =>
    obtain ⟨mid, hmid, hrest⟩ := Option.bind_eq_some_iff.mp h
    rw [List.cons_append, exec, hmid, Option.bind_some, ih hrest]

/-- An execution of a partial function that stays within the system's steps is a run. -/
theorem Run.of_exec {next : S → L → Option S}
    (sound : ∀ s l s', next s l = some s' → sys.step s l s') {s s' : S} {past ls : List L}
    (start : sys.Run past s) (h : exec next s ls = some s') : sys.Run (past ++ ls) s' := by
  induction ls generalizing past s with
  | nil =>
    cases h
    simpa using start
  | cons l ls ih =>
    obtain ⟨mid, hmid, hrest⟩ := Option.bind_eq_some_iff.mp h
    simpa using ih (start.snoc (sound _ _ _ hmid)) hrest

end System

end ProofKit.Runs
