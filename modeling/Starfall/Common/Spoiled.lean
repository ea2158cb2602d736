import Starfall.Common.Spelling

/-! Texts that `Var::parse` throws at, because a quote stands where none is expected.  Up to there
they are spelled, and what follows is not looked at. -/

namespace Starfall.Vars

open ProofKit ProofKit.Reading

/-- Where a text is spoiled. -/
inductive Place
  | value
  | members

inductive Spoiled : Place → Str → Prop
  /-- A name that no colon follows. -/
  | name {key w s : Str} {x : UInt8} (hkey : 34 ∉ key) (hw : Spaces w)
      (hx : isSpace x = false ∧ x ≠ 58) :
      Spoiled .members (34 :: (key ++ 34 :: (w ++ x :: s)))
  /-- A name without quotes that a quote ends. -/
  | quote {key s : Str} {x : UInt8} (hx : isSpace x = false)
      (hkey : ∀ a ∈ x :: key, a ≠ 34 ∧ a ∉ otherStop) :
      Spoiled .members (x :: (key ++ 34 :: s))
  | member {key w w' t : Str} (hkey : 34 ∉ key) (hw : Spaces w) (hw' : Spaces w')
      (h : Spoiled .value t) :
      Spoiled .members (34 :: (key ++ 34 :: (w ++ 58 :: (w' ++ t))))
  | next {key w w' t sep t' : Str} {v : Var} (hkey : 34 ∉ key) (hw : Spaces w) (hw' : Spaces w')
      (hv : Spells (.value v) t) (hsep : Separates sep) (h : Spoiled .members t') :
      Spoiled .members (34 :: (key ++ 34 :: (w ++ 58 :: (w' ++ (t ++ (sep ++ t'))))))
  | struct {w t : Str} (hw : Spaces w) (h : Spoiled .members t) :
      Spoiled .value (123 :: (w ++ t))

/-- The parser throws a `DataFormatException`. -/
def Throws {α : Type} (outcome : Except ParseError α) : Prop :=
  ∃ message, outcome = .error (.dataFormat message)

theorem throws_bind {α β : Type} {r : Parse α} {c : Cursor UInt8} (h : Throws (r c))
    (f : α → Parse β) : Throws ((r >>= f) c) := by
  obtain ⟨message, hmessage⟩ := h
  exact ⟨message, bind_of_error hmessage⟩

namespace Spoiled

/-- What the parser makes of a spoiled text: it throws, in a value behind white space or in the loop
over the members. -/
def Thrown : Place → Str → Prop
  | .value, t => ∀ fuel, 2 * t.length + 1 ≤ fuel → ∀ {w}, Spaces w → ∀ {c : Cursor UInt8},
      c.rest = w ++ t → Throws (parseFrom fuel c)
  | .members, t => ∀ fuel, 2 * t.length + 2 ≤ fuel → ∀ map, ∀ {c : Cursor UInt8}, c.rest = t →
      Throws (parseMembers fuel map c)

theorem members_start {t : Str} (h : Spoiled .members t) :
    ∃ x s, t = x :: s ∧ isSpace x = false ∧ x ≠ 44 ∧ x ≠ 125 := by
  cases h with
  | name hkey hw hx => exact ⟨34, _, rfl, by decide⟩
  | quote hx hkey =>
    have hstop := (List.forall_mem_cons.mp hkey).1.2
    exact ⟨_, _, rfl, hx, fun heq => hstop (by rw [heq]; decide),
      fun heq => hstop (by rw [heq]; decide)⟩
  | member hkey hw hw' h => exact ⟨34, _, rfl, by decide⟩
  | next hkey hw hw' hv hsep h => exact ⟨34, _, rfl, by decide⟩

/-- A round of the loop that its key throws in. -/
theorem throws_key {c : Cursor UInt8} {x : UInt8} {s : Str} (hc : c.rest = x :: s)
    (hx : x ≠ 125) (h : Throws (parseKey c)) (fuel : Nat) (map : List (Str × Var)) :
    Throws (parseMembers (fuel + 1) map c) := by
  rw [parseMembers, bind_of_ok (peek_cons hc), bind_of_ok (more_cons hc), if_pos ⟨hx, rfl⟩]
  exact throws_bind h _

theorem throws_name {key w s : Str} {x : UInt8} (hkey : 34 ∉ key) (hw : Spaces w)
    (hx : isSpace x = false ∧ x ≠ 58) {c : Cursor UInt8}
    (hc : c.rest = 34 :: (key ++ 34 :: (w ++ x :: s))) : Throws (parseKey c) := by
  have hquoted := parseString_quoted hkey c (w ++ x :: s) (by simp [hc])
  have hspace := rest_advance_append (w := 34 :: (key ++ [34])) (t := w ++ x :: s)
    (c := c) (by simp [hc])
  have hnext := rest_advance_append hspace
  rw [parseKey, bind_of_ok hquoted, bind_of_ok (skipWhiteSpace_eq hspace hw hx.1),
    bind_of_ok (peek_cons hnext), if_pos hx.2]
  exact ⟨_, rfl⟩

theorem throws_quote {key s : Str} {x : UInt8} (hkey : ∀ a ∈ x :: key, a ≠ 34 ∧ a ∉ otherStop)
    {c : Cursor UInt8} (hc : c.rest = x :: (key ++ 34 :: s)) : Throws (parseKey c) := by
  have hquote : findFirstOf strStop c.rest = some (x :: key).length := by
    rw [hc, ← List.cons_append]
    exact findFirstOf_append (not_mem_strStop fun hmem => (hkey 34 hmem).1 rfl) (by decide) s
  have hstop : ((findFirstOf strStop c.rest).any fun k =>
      decide (k < (findFirstOf otherStop c.rest).getD c.rest.length)) = true := by
    have hnone : List.findIdx? otherStop.contains ((x :: key) ++ [34]) = none := by
      refine findFirstOf_none fun a ha => ?_
      rcases List.mem_append.mp ha with ha | ha
      · exact (hkey a ha).2
      · rw [List.mem_singleton.mp ha]
        decide
    have hrest : c.rest = ((x :: key) ++ [34]) ++ s := by simp [hc]
    have hother : (x :: key).length < (findFirstOf otherStop c.rest).getD c.rest.length := by
      rw [findFirstOf, hrest, List.findIdx?_append, hnone]
      cases List.findIdx? otherStop.contains s with
      | none => simp
      | some k =>
        simp
        omega
    rw [hquote]
    simpa using hother
  have hne : x ≠ 34 := (hkey x List.mem_cons_self).1
  refine throws_bind ?_ _
  rw [parseString, bind_of_ok (peek_cons hc), if_neg hne, bind_of_ok (rest_apply c), if_pos hstop]
  exact ⟨_, rfl⟩

/-- The loop at a value behind its name. -/
theorem rest_value {key w w' t : Str} {c : Cursor UInt8}
    (hc : c.rest = 34 :: (key ++ 34 :: (w ++ 58 :: (w' ++ t)))) :
    (c.advance (key.length + w.length + 3)).rest = w' ++ t := by
  have hfront := rest_advance_append (c := c) (w := 34 :: (key ++ 34 :: (w ++ [58])))
    (t := w' ++ t) (by simp [hc])
  rw [← hfront]
  congr 2
  simp
  omega

theorem thrown {place : Place} {t : Str} (h : Spoiled place t) : Thrown place t := by
  induction h with
  | name hkey hw hx =>
    intro fuel hfuel map c hc
    obtain ⟨fuel, rfl⟩ : ∃ n, fuel = n + 1 := ⟨fuel - 1, by omega⟩
    exact throws_key hc (by decide) (throws_name hkey hw hx hc) fuel map
  | @quote key s x hx hkey =>
    intro fuel hfuel map c hc
    obtain ⟨fuel, rfl⟩ : ∃ n, fuel = n + 1 := ⟨fuel - 1, by omega⟩
    have hclose : x ≠ 125 := fun heq => (hkey x List.mem_cons_self).2 (by rw [heq]; decide)
    exact throws_key hc hclose (throws_quote hkey hc) fuel map
  | @member key w w' t hkey hw hw' h ih =>
    intro fuel hfuel map c hc
    simp only [List.length_cons, List.length_append] at hfuel
    obtain ⟨fuel, rfl⟩ : ∃ n, fuel = n + 1 := ⟨fuel - 1, by omega⟩
    rw [parseMembers, bind_of_ok (peek_cons hc), bind_of_ok (more_cons hc),
      if_pos ⟨by decide, rfl⟩, bind_of_ok (parseKey_eq hkey hw hc)]
    exact throws_bind (ih fuel (by omega) hw' (rest_value hc)) _
  | @next key w w' t sep t' v hkey hw hw' hv hsep h ih =>
    intro fuel hfuel map c hc
    simp only [List.length_cons, List.length_append] at hfuel
    obtain ⟨fuel, rfl⟩ : ∃ n, fuel = n + 1 := ⟨fuel - 1, by omega⟩
    obtain ⟨y, s', rfl, hspace, hcomma, -⟩ := h.members_start
    have hcolon := rest_value hc
    have hvalue := hv.parsed fuel (by omega) hw' (c.advance (key.length + w.length + 3))
      (sep ++ y :: s') (by rw [hcolon, List.append_assoc])
    have hafter := rest_advance_append (c := c.advance (key.length + w.length + 3))
      (w := w' ++ t) (t := sep ++ y :: s') (by rw [hcolon, List.append_assoc])
    have hnext := rest_advance_append hafter
    rw [parseMembers, bind_of_ok (peek_cons hc), bind_of_ok (more_cons hc),
      if_pos ⟨by decide, rfl⟩, bind_of_ok (parseKey_eq hkey hw hc), bind_of_ok hvalue,
      bind_of_ok (skipComma_eq hafter hsep hspace hcomma)]
    exact ih fuel (by omega) _ hnext
  | @struct w t hw h ih =>
    intro fuel hfuel w' hw' c hc
    simp only [List.length_cons, List.length_append] at hfuel
    obtain ⟨fuel, rfl⟩ : ∃ n, fuel = n + 1 := ⟨fuel - 1, by omega⟩
    obtain ⟨y, s', rfl, hspace, -⟩ := h.members_start
    have hrest := rest_advance_append hc
    have hinner : ((c.advance w'.length).advance 1).rest = w ++ y :: s' := by
      rw [Cursor.rest_advance, hrest]
      rfl
    rw [parseFrom_start fuel hc hw' (by decide), if_pos rfl, parseObject,
      bind_of_ok (skip_apply 1 _), bind_of_ok (skipWhiteSpace_eq hinner hw hspace)]
    exact throws_bind (ih fuel (by omega) [] (rest_advance_append hinner)) _

/-- The parser throws at a spoiled text. -/
theorem parse {t : Str} (h : Spoiled .value t) : Throws (Vars.parse t) := by
  have hthrows := h.thrown (2 * t.length + 1) (Nat.le_refl _) (w := []) nofun
    (c := Cursor.start t) rfl
  obtain ⟨message, hmessage⟩ := hthrows
  refine ⟨message, ?_⟩
  rw [Vars.parse, StateT.run', hmessage]
  rfl

end Spoiled

end Starfall.Vars
