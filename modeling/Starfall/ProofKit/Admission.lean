import Mathlib.Data.List.Basic
import Mathlib.Data.List.Induction

/-! Candidates that are admitted or refused one after the other.  A decision looks at those that
were admitted before.  The decisions keep clashing candidates apart, and refuse none without a
clash, exactly when each of them is the greedy one. -/

namespace ProofKit.Admission

variable {ι : Type*}

section Each

variable {α : Type*} (P : List α → α → Prop)

/-- `P` of every element, after those that stand before it. -/
def Each (as : List α) : Prop := ∀ before a after, as = before ++ a :: after → P before a

theorem each_nil : Each P [] := by
  intro before a after h
  simp at h

theorem each_append {as : List α} {a : α} : Each P (as ++ [a]) ↔ Each P as ∧ P as a := by
  constructor
  · intro h
    constructor
    · rintro before c after rfl
      exact h before c (after ++ [a]) (by simp)
    · exact h as a [] rfl
  · rintro ⟨has, ha⟩ before c after h
    rcases List.eq_nil_or_concat after with rfl | ⟨rest, x, rfl⟩
    · obtain ⟨rfl, hlast⟩ := List.append_inj' h rfl
      obtain rfl := List.singleton_inj.mp hlast
      exact ha
    · have h' : as ++ [a] = (before ++ c :: rest) ++ [x] := by simpa using h
      exact has before c rest (List.append_inj' h' rfl).1

end Each

section Decisions

variable (admits : List ι → ι → Bool)

/-- The candidates with the decisions on them, by the candidates admitted before. -/
def decisions (as : List ι) : List (ι × Bool) :=
  as.foldl (fun ds a => ds ++ [(a, admits ((ds.filter (·.2)).map (·.1)) a)]) []

def admitted (as : List ι) : List ι := ((decisions admits as).filter (·.2)).map (·.1)

theorem decisions_append (as : List ι) (a : ι) :
    decisions admits (as ++ [a]) = decisions admits as ++ [(a, admits (admitted admits as) a)] := by
  rw [decisions, List.foldl_append]
  rfl

theorem decisions_fst (as : List ι) : (decisions admits as).map Prod.fst = as := by
  induction as using List.reverseRecOn with
  | nil => rfl
  | append_singleton as a ih => rw [decisions_append, List.map_append, ih, List.map_singleton]

/-- Decisions that look at one thing of each candidate. -/
theorem decisions_map {κ : Type*} (g : κ → ι) (cs : List κ) :
    (decisions (fun chosen c => admits (chosen.map g) (g c)) cs).map (Prod.map g id) =
      decisions admits (cs.map g) := by
  induction cs using List.reverseRecOn with
  | nil => rfl
  | append_singleton cs c ih =>
    rw [List.map_append, List.map_singleton, decisions_append, decisions_append, List.map_append,
      ih, admitted, admitted, ← ih, List.filter_map, List.map_map, List.map_map]
    rfl

theorem mem_admitted {as : List ι} {a : ι} :
    a ∈ admitted admits as ↔ (a, true) ∈ decisions admits as := by
  simp [admitted]

theorem admitted_append (as : List ι) (a : ι) :
    admitted admits (as ++ [a]) =
      admitted admits as ++ if admits (admitted admits as) a then [a] else [] := by
  rw [admitted, decisions_append, List.filter_append, List.map_append]
  cases admits (admitted admits as) a with
  | true => rfl
  | false => rfl

end Decisions

variable (Clash : ι → ι → Prop) (Eligible : ι → Prop)

/-- No two candidates that clash are admitted, and an eligible one is refused only when one that was
admitted before clashes with it. -/
structure Fair (ds : List (ι × Bool)) : Prop where
  exclusive : ds.Pairwise fun a b => a.2 = true → b.2 = true → ¬Clash a.1 b.1
  justified : Each (fun before a =>
    a.2 = false → Eligible a.1 → ∃ b, (b, true) ∈ before ∧ Clash b a.1) ds

variable {Clash Eligible}

theorem fair_append {ds : List (ι × Bool)} {a : ι} {d : Bool} :
    Fair Clash Eligible (ds ++ [(a, d)]) ↔ Fair Clash Eligible ds ∧
      (d = true → ∀ b, (b, true) ∈ ds → ¬Clash b a) ∧
      (d = false → Eligible a → ∃ b, (b, true) ∈ ds ∧ Clash b a) := by
  constructor
  · rintro ⟨hexclusive, hjustified⟩
    rw [List.pairwise_append] at hexclusive
    obtain ⟨hjustified, hlast⟩ := (each_append _).mp hjustified
    refine ⟨⟨hexclusive.1, hjustified⟩, ?_, hlast⟩
    rintro rfl b hb
    exact hexclusive.2.2 _ hb _ (List.mem_singleton_self _) rfl rfl
  · rintro ⟨⟨hexclusive, hjustified⟩, hadmitted, hrefused⟩
    constructor
    · rw [List.pairwise_append]
      refine ⟨hexclusive, by simp, ?_⟩
      rintro ⟨b, e⟩ hb c hc
      obtain rfl := List.mem_singleton.mp hc
      intro he hd
      subst he
      exact hadmitted hd b hb
    · exact (each_append _).mpr ⟨hjustified, hrefused⟩

/-- Eligible, and no clash with what is admitted already. -/
def Greedy (Clash : ι → ι → Prop) (Eligible : ι → Prop) (chosen : List ι) (a : ι) : Prop :=
  Eligible a ∧ ∀ b ∈ chosen, ¬Clash b a

variable {admits greedy : List ι → ι → Bool}

/-- One more decision is fair after fair ones when it is the greedy one, as long as the ineligible
are not admitted. -/
theorem fair_step {as : List ι} {a : ι}
    (hadmits : ∀ chosen b, admits chosen b = true → Eligible b) :
    Fair Clash Eligible (decisions admits (as ++ [a])) ↔
      Fair Clash Eligible (decisions admits as) ∧
        (admits (admitted admits as) a = true ↔ Greedy Clash Eligible (admitted admits as) a) := by
  rw [decisions_append, fair_append]
  apply and_congr_right
  intro _
  simp only [← mem_admitted]
  constructor
  · rintro ⟨hadmitted, hrefused⟩
    constructor
    · intro ha
      exact ⟨hadmits _ a ha, hadmitted ha⟩
    · rintro ⟨heligible, hclear⟩
      by_contra ha
      obtain ⟨b, hb, hclash⟩ := hrefused (by simpa using ha) heligible
      exact hclear b hb hclash
  · intro h
    constructor
    · intro ha
      exact (h.mp ha).2
    · intro ha heligible
      by_contra hnone
      push Not at hnone
      have ha' := h.mpr ⟨heligible, hnone⟩
      simp [ha] at ha'

/-- Decisions that agree, each after those that the second admits, admit the same. -/
theorem admitted_eq_of_agree {as : List ι}
    (h : Each (fun before a =>
      admits (admitted greedy before) a = greedy (admitted greedy before) a) as) :
    admitted admits as = admitted greedy as := by
  induction as using List.reverseRecOn with
  | nil => rfl
  | append_singleton as a ih =>
    obtain ⟨has, ha⟩ := (each_append _).mp h
    rw [admitted_append, admitted_append, ih has, ha]

/-- The decisions are fair exactly when each of them is the greedy one, after those that the greedy
choice admits. -/
theorem fair_decisions_iff (hadmits : ∀ chosen b, admits chosen b = true → Eligible b)
    (hgreedy : ∀ chosen b, greedy chosen b = true ↔ Greedy Clash Eligible chosen b) (as : List ι) :
    Fair Clash Eligible (decisions admits as) ↔ Each (fun before a =>
      admits (admitted greedy before) a = greedy (admitted greedy before) a) as := by
  induction as using List.reverseRecOn with
  | nil =>
    have hnil : Fair Clash Eligible (decisions admits []) := ⟨List.Pairwise.nil, each_nil _⟩
    exact iff_of_true hnil (each_nil _)
  | append_singleton as a ih =>
    rw [fair_step hadmits, each_append, ih]
    apply and_congr_right
    intro has
    rw [admitted_eq_of_agree has, ← hgreedy]
    exact Bool.eq_iff_iff.symm

end ProofKit.Admission
