import Mathlib.Data.List.Forall2

/-! Machines that read a text and write as they read.  A filling of a hole in a text is unseen when
the machine goes on behind it as if it were not there, and then every filling of the holes of a
template is read as the template itself is. -/

namespace ProofKit.Transducers

/-- A machine that goes to a state and writes something for each letter that it reads. -/
structure Transducer (S A B : Type*) where
  step : S → A → S × List B

namespace Transducer

variable {S A B : Type*} (m : Transducer S A B)

def run (s : S) : List A → S × List B
  | [] => (s, [])
  | a :: as => ((run (m.step s a).1 as).1, (m.step s a).2 ++ (run (m.step s a).1 as).2)

/-- The state that a run ends in, which is computed letter by letter. -/
def after (s : S) : List A → S
  | [] => s
  | a :: as =>
    match m.step s a with
    | (s', _) => after s' as

theorem run_fst (s : S) (xs : List A) : (m.run s xs).1 = m.after s xs := by
  induction xs generalizing s with
  | nil => rfl
  | cons a as ih => exact ih _

theorem run_append (s : S) (xs ys : List A) :
    m.run s (xs ++ ys) =
      ((m.run (m.run s xs).1 ys).1, (m.run s xs).2 ++ (m.run (m.run s xs).1 ys).2) := by
  induction xs generalizing s with
  | nil => rfl
  | cons a as ih => rw [List.cons_append, run, ih, run, List.append_assoc]

/-- From one state to another over both texts, with the same written on the way. -/
structure Alike (s : S) (xs ys : List A) (s' : S) : Prop where
  left : (m.run s xs).1 = s'
  right : (m.run s ys).1 = s'
  written : (m.run s xs).2 = (m.run s ys).2

/-- In front of `a`, the machine does not see the text. -/
def Unseen (s : S) (xs : List A) (a : A) : Prop := m.run s (xs ++ [a]) = m.run s [a]

variable {m} {s s' s'' : S} {xs ys us vs : List A} {a : A}

theorem run_of_run_eq (h : m.run s xs = m.run s ys) (us : List A) :
    m.run s (xs ++ us) = m.run s (ys ++ us) := by
  rw [run_append, run_append, h]

theorem Alike.of_run_eq (h : m.run s xs = m.run s ys) (hs : (m.run s ys).1 = s') :
    m.Alike s xs ys s' :=
  ⟨by rw [h, hs], hs, by rw [h]⟩

theorem Alike.append (first : m.Alike s xs ys s') (second : m.Alike s' us vs s'') :
    m.Alike s (xs ++ us) (ys ++ vs) s'' where
  left := by rw [run_append, first.left, second.left]
  right := by rw [run_append, first.right, second.right]
  written := by
    rw [run_append, run_append, first.left, first.right, first.written, second.written]

theorem Alike.symm (h : m.Alike s xs ys s') : m.Alike s ys xs s' :=
  ⟨h.right, h.left, h.written.symm⟩

theorem Alike.trans (first : m.Alike s xs ys s') (second : m.Alike s ys us s') :
    m.Alike s xs us s' :=
  ⟨first.left, second.right, first.written.trans second.written⟩

theorem Alike.flatten {xss yss : List (List A)} (h : List.Forall₂ (m.Alike s · · s) xss yss) :
    m.Alike s xss.flatten yss.flatten s := by
  induction h with
  | nil => exact ⟨rfl, rfl, rfl⟩
  | cons first _ ih => exact first.append ih

theorem Unseen.run_eq (h : m.Unseen s xs a) (us : List A) :
    m.run s (xs ++ a :: us) = m.run s (a :: us) := by
  have := run_of_run_eq h us
  rwa [List.append_assoc, List.singleton_append] at this

/-- What the machine reads on the spot is unseen. -/
theorem Unseen.of_stays (h : ∀ x ∈ xs, m.step s x = (s, [])) (a : A) : m.Unseen s xs a := by
  induction xs with
  | nil => rfl
  | cons x xs ih =>
    rw [List.forall_mem_cons] at h
    rw [Unseen, List.cons_append, run, h.1, ih h.2, List.nil_append]

end Transducer

/-- A text with holes, each of which has a name. -/
inductive Piece (I A : Type*)
  | text (xs : List A)
  | hole (i : I)

namespace Piece

variable {S A B I : Type*}

def fill (f : I → List A) : List (Piece I A) → List A
  | [] => []
  | .text xs :: t => xs ++ fill f t
  | .hole i :: t => f i ++ fill f t

/-- The letter that a template begins with, whatever the fillings. -/
def first : List (Piece I A) → Option A
  | .text (a :: _) :: _ => some a
  | _ => none

/-- The holes of a template, with the state in which the machine comes to each, and the letter
behind it. -/
def holes (m : Transducer S A B) (s : S) : List (Piece I A) → List (S × I × Option A)
  | [] => []
  | .text xs :: t => holes m (m.after s xs) t
  | .hole i :: t => (s, i, first t) :: holes m s t

theorem fill_first {t : List (Piece I A)} {a : A} (h : first t = some a) (f : I → List A) :
    ∃ us, fill f t = a :: us := by
  unfold first at h
  split at h
  · cases h
    exact ⟨_, rfl⟩
  · cases h

/-- A filling that is unseen in each hole is read as the empty one. -/
theorem run_fill {m : Transducer S A B} {s : S} {t : List (Piece I A)} {f : I → List A}
    (h : ∀ hole ∈ holes m s t, ∃ a, hole.2.2 = some a ∧ m.Unseen hole.1 (f hole.2.1) a) :
    m.run s (fill f t) = m.run s (fill (fun _ => []) t) := by
  induction t generalizing s with
  | nil => rfl
  | cons piece t ih =>
    cases piece with
    | text xs =>
      rw [holes, ← Transducer.run_fst] at h
      rw [fill, fill, Transducer.run_append, Transducer.run_append, ih h]
    | hole i =>
      rw [holes, List.forall_mem_cons] at h
      obtain ⟨⟨a, hfirst, hunseen⟩, hrest⟩ := h
      obtain ⟨us, hus⟩ := fill_first hfirst f
      rw [fill, hus, hunseen.run_eq, ← hus, ih hrest]
      rfl

end Piece

section Sides

variable {A B C D : Type} {R R' : A → B → Prop} {Q : C → D → Prop}

theorem forall₂_imp_of_mem {P : A → Prop} {P' : B → Prop} {xs : List A} {ys : List B}
    (h : List.Forall₂ R xs ys) (hxs : ∀ x ∈ xs, P x) (hys : ∀ y ∈ ys, P' y)
    (himp : ∀ x y, P x → P' y → R x y → R' x y) : List.Forall₂ R' xs ys := by
  induction h with
  | nil => exact .nil
  | cons first _ ih =>
    rw [List.forall_mem_cons] at hxs hys
    exact .cons (himp _ _ hxs.1 hys.1 first) (ih hxs.2 hys.2)

theorem rel_and {P : A → Prop} {P' : B → Prop} {x : Option A} {y : Option B}
    (h : Option.Rel R x y) (hx : ∀ a, x = some a → P a) (hy : ∀ b, y = some b → P' b) :
    Option.Rel (fun a b => R a b ∧ P a ∧ P' b) x y := by
  cases h with
  | none => exact .none
  | some h => exact .some ⟨h, hx _ rfl, hy _ rfl⟩

theorem rel_map {x : Option A} {y : Option B} {f : A → C} {g : B → C} (h : Option.Rel R x y)
    (hfg : ∀ a b, R a b → f a = g b) : x.map f = y.map g := by
  cases h with
  | none => rfl
  | some h => exact congrArg some (hfg _ _ h)

theorem rel_bind {x : Option A} {y : Option B} {f : A → Option C} {g : B → Option D}
    (h : Option.Rel R x y) (hfg : ∀ a b, R a b → Option.Rel Q (f a) (g b)) :
    Option.Rel Q (x >>= f) (y >>= g) := by
  cases h with
  | none => exact .none
  | some h => exact hfg _ _ h

theorem rel_mapM {f : A → Option C} {g : B → Option D} {xs : List A} {ys : List B}
    (h : List.Forall₂ (fun x y => Option.Rel Q (f x) (g y)) xs ys) :
    Option.Rel (List.Forall₂ Q) (xs.mapM f) (ys.mapM g) := by
  induction h with
  | nil => exact .some .nil
  | cons first _ ih =>
    rw [List.mapM_cons, List.mapM_cons]
    refine rel_bind first fun a b hab => rel_bind ih fun as bs habs => ?_
    exact .some (.cons hab habs)

end Sides

end ProofKit.Transducers
