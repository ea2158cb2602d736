import Starfall.Common.Vars

/-! Which texts spell which values for `Var::parse`.  The grammar leaves the white space and the
commas as free as the parser does, and it holds everything that this program writes.  The parser
reads what is spelled, and what it reads can be spelled again. -/

namespace Starfall.Vars

open ProofKit ProofKit.Reading

/-- A string that needs no quotes. -/
def Bare (s : Str) : Prop :=
  s ≠ [] ∧ ∀ a ∈ s, isSpace a = false ∧ a ∉ ([34, 44, 91, 93, 123, 125] : Str)

/-- What a text may spell: a value, the elements of a vector, or the members of a struct. -/
inductive Form
  | value (v : Var)
  | items (items : List Var)
  | members (members : List (Str × Var))

inductive Spells : Form → Str → Prop
  | quoted {s : Str} (h : 34 ∉ s) : Spells (.value (.string s)) (34 :: (s ++ [34]))
  /-- A string without quotes takes the character after it along. -/
  | bare {s : Str} {stop : UInt8} (h : Bare s) (hstop : stop ∈ otherStop) :
      Spells (.value (.string s)) (s ++ [stop])
  | vector {items : List Var} {w t : Str} (hw : Spaces w) (h : Spells (.items items) t) :
      Spells (.value (.vector items)) (91 :: (w ++ (t ++ [93])))
  | struct {members : List (Str × Var)} {w t : Str} (hw : Spaces w)
      (h : Spells (.members members) t) :
      Spells (.value (.struct (SortedMaps.insertAll [] members))) (123 :: (w ++ (t ++ [125])))
  | noItems : Spells (.items []) []
  | item {v : Var} {items : List Var} {t sep t' : Str} (h : Spells (.value v) t)
      (hsep : Separates sep) (h' : Spells (.items items) t') :
      Spells (.items (v :: items)) (t ++ (sep ++ t'))
  | noMembers : Spells (.members []) []
  | member {key : Str} {v : Var} {members : List (Str × Var)} {w w' t sep t' : Str}
      (hkey : 34 ∉ key) (hw : Spaces w) (hw' : Spaces w') (h : Spells (.value v) t)
      (hsep : Separates sep) (h' : Spells (.members members) t') :
      Spells (.members ((key, v) :: members))
        (34 :: (key ++ 34 :: (w ++ 58 :: (w' ++ (t ++ (sep ++ t'))))))

theorem not_mem_strStop {s : Str} (h : 34 ∉ s) : ∀ a ∈ s, a ∉ strStop := by
  intro a ha hstop
  rw [strStop_eq, List.mem_singleton] at hstop
  exact h (hstop ▸ ha)

theorem skip_apply (n : Nat) (c : Cursor UInt8) : skip n c = .ok ((), c.advance n) := rfl

theorem rest_apply (c : Cursor UInt8) : rest c = .ok (c.rest, c) := rfl

theorem parseString_quoted {s : Str} (h : 34 ∉ s) :
    Reads parseString (34 :: (s ++ [34])) s := by
  intro c suffix hc
  rw [List.cons_append, List.append_assoc, List.singleton_append] at hc
  have hrest : (c.advance 1).rest = s ++ 34 :: suffix := by
    rw [Cursor.rest_advance, hc]
    rfl
  rw [parseString, bind_of_ok (peek_cons hc), if_pos rfl, bind_of_ok (skip_apply 1 c),
    bind_of_ok (rest_apply _), hrest, findFirstOf_append (not_mem_strStop h) (by decide)]
  dsimp only
  rw [bind_of_ok (skip_apply _ _), List.take_left]
  simp [pure_apply, Nat.add_comm]

namespace Bare

variable {s : Str}

theorem not_otherStop (h : Bare s) : ∀ a ∈ s, a ∉ otherStop := by
  intro a ha hstop
  obtain ⟨hspace, hmem⟩ := h.2 a ha
  rw [otherStop_eq] at hstop
  rcases List.mem_cons.mp hstop with rfl | hstop
  · exact absurd hspace (by decide)
  · exact hmem (by revert hstop; simp; grind)

theorem not_quote (h : Bare s) : 34 ∉ s := fun hmem => (h.2 34 hmem).2 (by decide)

theorem exists_cons (h : Bare s) : ∃ x t, s = x :: t ∧ isSpace x = false ∧
    x ∉ ([34, 44, 91, 93, 123, 125] : Str) := by
  obtain ⟨hne, hall⟩ := h
  obtain ⟨x, t, rfl⟩ := List.exists_cons_of_ne_nil hne
  exact ⟨x, t, rfl, hall x List.mem_cons_self⟩

end Bare

theorem parseString_bare {s : Str} {stop : UInt8} (h : Bare s) (hstop : stop ∈ otherStop) :
    Reads parseString (s ++ [stop]) s := by
  intro c suffix hc
  obtain ⟨x, t, rfl, -, hx⟩ := h.exists_cons
  rw [List.append_assoc, List.singleton_append] at hc
  have hquote : x ≠ 34 := fun hx' => hx (by rw [hx']; decide)
  have hsafe : ¬(findFirstOf strStop ((x :: t) ++ stop :: suffix)).any
      (· < (x :: t).length) := by
    have hnone := findFirstOf_none (not_mem_strStop h.not_quote)
    rw [findFirstOf] at hnone
    rw [findFirstOf, List.findIdx?_append, hnone]
    cases List.findIdx? strStop.contains (stop :: suffix) with
    | none => simp
    | some n =>
      simp only [Option.map_some, Option.none_or, Option.any_some, decide_eq_true_eq, Nat.not_lt]
      omega
  rw [parseString, bind_of_ok (peek_cons hc), if_neg hquote, bind_of_ok (rest_apply c), hc,
    findFirstOf_append h.not_otherStop hstop]
  dsimp only [Option.getD_some]
  rw [if_neg hsafe, bind_of_ok (skip_apply _ _), List.take_left]
  simp [pure_apply]

theorem map_string {c c' : Cursor UInt8} {s : Str} (h : parseString c = .ok (s, c')) :
    (Var.string <$> parseString) c = .ok (.string s, c') := by
  show Except.bind (parseString c) _ = _
  rw [h]
  rfl

/-- Behind white space, the first character says what is read. -/
theorem parseFrom_start {c : Cursor UInt8} {w s : Str} {x : UInt8} (fuel : Nat)
    (h : c.rest = w ++ x :: s) (hw : Spaces w) (hx : isSpace x = false) :
    parseFrom (fuel + 1) c =
      (if x = 123 then parseObject (parseMembers fuel [])
        else if x = 91 then parseArray (parseItems fuel)
        else Var.string <$> parseString) (c.advance w.length) := by
  have hrest := rest_advance_append h
  rw [parseFrom, bind_of_ok (skipWhiteSpace_eq h hw hx), bind_of_ok (more_cons hrest), if_pos rfl,
    bind_of_ok (peek_cons hrest)]

/-- What `parseObject` and `parseArray` do around their loops. -/
theorem bracketed_eq {α : Type} {loop : Parse α} {a : α} {f : α → Var} {message : String}
    {c : Cursor UInt8} {start stop : UInt8} {w s suffix : Str}
    (h : c.rest = start :: (w ++ (s ++ stop :: suffix))) (hw : Spaces w)
    (hstart : ∃ x s', s ++ stop :: suffix = x :: s' ∧ isSpace x = false ∧ x ≠ 44)
    (hloop : loop ((c.advance 1).advance w.length) =
      .ok (a, ((c.advance 1).advance w.length).advance s.length)) :
    (do
      skip 1
      skipWhiteSpace
      let a ← loop
      if (← peek) ≠ stop then
        throw (.dataFormat message)
      else
        skip 1
        pure (f a) : Parse Var) c =
          .ok (f a, c.advance (start :: (w ++ (s ++ [stop]))).length) := by
  obtain ⟨x, s', hx, hspace, -⟩ := hstart
  have hopen : (c.advance 1).rest = w ++ (s ++ stop :: suffix) := by
    rw [Cursor.rest_advance, h]
    rfl
  have hinner := rest_advance_append hopen
  have hclose := rest_advance_append hinner
  rw [hx] at hopen
  rw [bind_of_ok (skip_apply 1 c), bind_of_ok (skipWhiteSpace_eq hopen hw hspace),
    bind_of_ok hloop, bind_of_ok (peek_cons hclose), if_neg (not_not_intro rfl),
    bind_of_ok (skip_apply 1 _), pure_apply]
  simp only [Cursor.advance_advance]
  congr 3
  simp
  omega

theorem parseObject_eq {c : Cursor UInt8} {w s suffix : Str} {aStruct : List (Str × Var)}
    {loop : Parse (List (Str × Var))} (h : c.rest = 123 :: (w ++ (s ++ 125 :: suffix)))
    (hw : Spaces w) (hstart : ∃ x s', s ++ 125 :: suffix = x :: s' ∧ isSpace x = false ∧ x ≠ 44)
    (hloop : loop ((c.advance 1).advance w.length) =
      .ok (aStruct, ((c.advance 1).advance w.length).advance s.length)) :
    parseObject loop c = .ok (.struct aStruct, c.advance (123 :: (w ++ (s ++ [125]))).length) :=
  bracketed_eq h hw hstart hloop

theorem parseArray_eq {c : Cursor UInt8} {w s suffix : Str} {items : List Var}
    {loop : Parse (List Var)} (h : c.rest = 91 :: (w ++ (s ++ 93 :: suffix)))
    (hw : Spaces w) (hstart : ∃ x s', s ++ 93 :: suffix = x :: s' ∧ isSpace x = false ∧ x ≠ 44)
    (hloop : loop ((c.advance 1).advance w.length) =
      .ok (items, ((c.advance 1).advance w.length).advance s.length)) :
    parseArray loop c = .ok (.vector items, c.advance (91 :: (w ++ (s ++ [93]))).length) :=
  bracketed_eq h hw hstart hloop

theorem parseKey_eq {c : Cursor UInt8} {key w s : Str} (hkey : 34 ∉ key) (hw : Spaces w)
    (h : c.rest = 34 :: (key ++ 34 :: (w ++ 58 :: s))) :
    parseKey c = .ok (key, c.advance (key.length + w.length + 3)) := by
  have hquoted := parseString_quoted hkey c (w ++ 58 :: s) (by simp [h])
  have hspace := rest_advance_append (w := 34 :: (key ++ [34])) (t := w ++ 58 :: s)
    (c := c) (by simp [h])
  have hcolon := rest_advance_append hspace
  rw [parseKey, bind_of_ok hquoted, bind_of_ok (skipWhiteSpace_eq hspace hw (by decide)),
    bind_of_ok (peek_cons hcolon), if_neg (by decide), bind_of_ok (skip_apply 1 _), pure_apply]
  simp only [Cursor.advance_advance]
  congr 3
  simp
  omega

namespace Spells

/-- What the parser makes of a text: a value behind white space, and the rounds of a loop up to the
bracket that ends it. -/
def Parsed : Form → Str → Prop
  | .value v, t => ∀ fuel, 2 * t.length + 1 ≤ fuel → ∀ {w}, Spaces w →
      Reads (parseFrom fuel) (w ++ t) v
  | .items items, t => ∀ fuel, 2 * t.length + 2 ≤ fuel → ∀ {c suffix},
      c.rest = t ++ 93 :: suffix → parseItems fuel c = .ok (items, c.advance t.length)
  | .members members, t => ∀ fuel, 2 * t.length + 2 ≤ fuel → ∀ map {c suffix},
      c.rest = t ++ 125 :: suffix →
      parseMembers fuel map c = .ok (SortedMaps.insertAll map members, c.advance t.length)

/-- What a value starts with is neither a space nor a comma nor a closing bracket. -/
theorem value_start {v : Var} {t : Str} (h : Spells (.value v) t) :
    ∃ x s, t = x :: s ∧ isSpace x = false ∧ x ∉ ([44, 93, 125] : Str) := by
  cases h with
  | quoted h => exact ⟨_, _, rfl, by decide, by decide⟩
  | @bare s stop h hstop =>
    obtain ⟨x, t, rfl, hspace, hx⟩ := h.exists_cons
    exact ⟨x, t ++ [stop], rfl, hspace, fun hmem => hx (by revert hmem; simp; grind)⟩
  | vector hw h => exact ⟨_, _, rfl, by decide, by decide⟩
  | struct hw h => exact ⟨_, _, rfl, by decide, by decide⟩

/-- The loop over the elements stands at one of them or at the end. -/
theorem items_start {items : List Var} {t : Str} (h : Spells (.items items) t) (suffix : Str) :
    ∃ x s, t ++ 93 :: suffix = x :: s ∧ isSpace x = false ∧ x ≠ 44 := by
  cases h with
  | noItems => exact ⟨93, suffix, rfl, by decide, by decide⟩
  | item h hsep h' =>
    obtain ⟨x, s, rfl, hspace, hx⟩ := h.value_start
    exact ⟨x, _, rfl, hspace, fun hcomma => hx (by rw [hcomma]; decide)⟩

theorem members_start {members : List (Str × Var)} {t : Str} (h : Spells (.members members) t)
    (suffix : Str) : ∃ x s, t ++ 125 :: suffix = x :: s ∧ isSpace x = false ∧ x ≠ 44 := by
  cases h with
  | noMembers => exact ⟨125, suffix, rfl, by decide, by decide⟩
  | member hkey hw hw' h hsep h' => exact ⟨34, _, rfl, by decide, by decide⟩

theorem parsed_string {s t : Str} (h : Spells (.value (.string s)) t)
    (hstring : Reads parseString t s) (hopen : ∀ x t', t = x :: t' → x ≠ 123 ∧ x ≠ 91) :
    Parsed (.value (.string s)) t := by
  intro fuel hfuel w hw c suffix hc
  obtain ⟨x, t', rfl, hspace, -⟩ := h.value_start
  obtain ⟨hobject, harray⟩ := hopen x t' rfl
  obtain ⟨fuel, rfl⟩ := Nat.exists_eq_add_of_lt hfuel
  rw [List.append_assoc] at hc
  have hread := hstring (c.advance w.length) suffix (rest_advance_append hc)
  rw [parseFrom_start _ hc hw hspace, if_neg hobject, if_neg harray, map_string hread]
  simp

theorem parsed_vector {items : List Var} {w' t : Str} (hw' : Spaces w')
    (h : Spells (.items items) t) (ih : Parsed (.items items) t) :
    Parsed (.value (.vector items)) (91 :: (w' ++ (t ++ [93]))) := by
  intro fuel hfuel w hw c suffix hc
  simp only [List.length_cons, List.length_append] at hfuel
  obtain ⟨fuel, rfl⟩ := Nat.exists_eq_add_of_lt hfuel
  have hc' : c.rest = w ++ 91 :: (w' ++ (t ++ 93 :: suffix)) := by simp [hc]
  have hrest := rest_advance_append hc'
  have hinner : ((c.advance w.length).advance 1).rest = w' ++ (t ++ 93 :: suffix) := by
    rw [Cursor.rest_advance, hrest]
    rfl
  rw [parseFrom_start _ hc' hw (by decide), if_neg (by decide), if_pos rfl,
    parseArray_eq hrest hw' (h.items_start suffix) (ih _ (by omega) (rest_advance_append hinner))]
  simp

theorem parsed_struct {members : List (Str × Var)} {w' t : Str} (hw' : Spaces w')
    (h : Spells (.members members) t) (ih : Parsed (.members members) t) :
    Parsed (.value (.struct (SortedMaps.insertAll [] members)))
      (123 :: (w' ++ (t ++ [125]))) := by
  intro fuel hfuel w hw c suffix hc
  simp only [List.length_cons, List.length_append] at hfuel
  obtain ⟨fuel, rfl⟩ := Nat.exists_eq_add_of_lt hfuel
  have hc' : c.rest = w ++ 123 :: (w' ++ (t ++ 125 :: suffix)) := by simp [hc]
  have hrest := rest_advance_append hc'
  have hinner : ((c.advance w.length).advance 1).rest = w' ++ (t ++ 125 :: suffix) := by
    rw [Cursor.rest_advance, hrest]
    rfl
  rw [parseFrom_start _ hc' hw (by decide), if_pos rfl,
    parseObject_eq hrest hw' (h.members_start suffix)
      (ih _ (by omega) [] (rest_advance_append hinner))]
  simp

theorem parsed_item {v : Var} {items : List Var} {t sep t' : Str} (h : Spells (.value v) t)
    (hsep : Separates sep) (h' : Spells (.items items) t') (ih : Parsed (.value v) t)
    (ih' : Parsed (.items items) t') : Parsed (.items (v :: items)) (t ++ (sep ++ t')) := by
  intro fuel hfuel c suffix hc
  simp only [List.length_append] at hfuel
  obtain ⟨x, s, hx, -, hstop⟩ := h.value_start
  obtain ⟨y, s', hy, hspace, hcomma⟩ := h'.items_start suffix
  have hlength : 1 ≤ t.length := by rw [hx]; simp
  obtain ⟨fuel, rfl⟩ : ∃ n, fuel = n + 1 := ⟨fuel - 1, by omega⟩
  simp only [List.append_assoc] at hc
  have hstart : c.rest = x :: (s ++ (sep ++ (t' ++ 93 :: suffix))) := by rw [hc, hx]; rfl
  have hvalue := ih fuel (by omega) (w := []) (by simp [Spaces]) c _ hc
  have hafter := rest_advance_append hc
  have hnext := rest_advance_append hafter
  rw [hy] at hafter
  have hloop := ih' fuel (by omega) hnext
  rw [parseItems, bind_of_ok (peek_cons hstart), bind_of_ok (more_cons hstart),
    if_pos ⟨fun hx93 => hstop (by rw [hx93]; decide), rfl⟩, bind_of_ok hvalue, List.nil_append,
    bind_of_ok (skipComma_eq hafter hsep hspace hcomma), bind_of_ok hloop, pure_apply]
  simp [Nat.add_assoc]

theorem parsed_member {key : Str} {v : Var} {members : List (Str × Var)} {w w' t sep t' : Str}
    (hkey : 34 ∉ key) (hw : Spaces w) (hw' : Spaces w') (hsep : Separates sep)
    (h' : Spells (.members members) t') (ih : Parsed (.value v) t)
    (ih' : Parsed (.members members) t') :
    Parsed (.members ((key, v) :: members))
      (34 :: (key ++ 34 :: (w ++ 58 :: (w' ++ (t ++ (sep ++ t')))))) := by
  intro fuel hfuel map c suffix hc
  simp only [List.length_cons, List.length_append] at hfuel
  obtain ⟨y, s', hy, hspace, hcomma⟩ := h'.members_start suffix
  obtain ⟨fuel, rfl⟩ : ∃ n, fuel = n + 1 := ⟨fuel - 1, by omega⟩
  have hstart : c.rest = 34 :: (key ++ 34 :: (w ++ 58 :: (w' ++ (t ++ (sep ++ (t' ++
      125 :: suffix)))))) := by
    simp [hc]
  have hcolon : (c.advance (key.length + w.length + 3)).rest =
      w' ++ (t ++ (sep ++ (t' ++ 125 :: suffix))) := by
    have hfront := rest_advance_append (c := c) (w := 34 :: (key ++ 34 :: (w ++ [58])))
      (t := w' ++ (t ++ (sep ++ (t' ++ 125 :: suffix)))) (by simp [hstart])
    rw [← hfront]
    congr 2
    simp
    omega
  have hvalue := ih fuel (by omega) hw' (c.advance (key.length + w.length + 3))
    (sep ++ (t' ++ 125 :: suffix)) (by rw [hcolon, List.append_assoc])
  have hafter := rest_advance_append (c := c.advance (key.length + w.length + 3))
    (w := w' ++ t) (t := sep ++ (t' ++ 125 :: suffix)) (by rw [hcolon, List.append_assoc])
  have hnext := rest_advance_append hafter
  rw [hy] at hafter
  have hloop := ih' fuel (by omega) (SortedMaps.insert map key v) hnext
  rw [parseMembers, bind_of_ok (peek_cons hstart), bind_of_ok (more_cons hstart),
    if_pos ⟨by decide, rfl⟩, bind_of_ok (parseKey_eq hkey hw hstart), bind_of_ok hvalue,
    bind_of_ok (skipComma_eq hafter hsep hspace hcomma), hloop, SortedMaps.insertAll_cons]
  simp only [Cursor.advance_advance]
  congr 3
  simp
  omega

/-- The parser reads what is spelled, wherever it stands. -/
theorem parsed {form : Form} {t : Str} (h : Spells form t) : Parsed form t := by
  induction h with
  | quoted h => exact parsed_string (.quoted h) (parseString_quoted h) (by rintro _ _ ⟨⟩; decide)
  | bare h hstop =>
    refine parsed_string (.bare h hstop) (parseString_bare h hstop) ?_
    obtain ⟨x, t, rfl, -, hx⟩ := h.exists_cons
    rintro _ _ ⟨⟩
    exact ⟨fun hx' => hx (by rw [hx']; decide), fun hx' => hx (by rw [hx']; decide)⟩
  | vector hw h ih => exact parsed_vector hw h ih
  | struct hw h ih => exact parsed_struct hw h ih
  | noItems =>
    intro fuel hfuel c suffix hc
    obtain ⟨fuel, rfl⟩ : ∃ n, fuel = n + 1 := ⟨fuel - 1, by omega⟩
    rw [parseItems, bind_of_ok (peek_cons hc), bind_of_ok (more_cons hc), if_neg (by simp)]
    rfl
  | item h hsep h' ih ih' => exact parsed_item h hsep h' ih ih'
  | noMembers =>
    intro fuel hfuel map c suffix hc
    obtain ⟨fuel, rfl⟩ : ∃ n, fuel = n + 1 := ⟨fuel - 1, by omega⟩
    rw [parseMembers, bind_of_ok (peek_cons hc), bind_of_ok (more_cons hc), if_neg (by simp)]
    rfl
  | member hkey hw hw' h hsep h' ih ih' => exact parsed_member hkey hw hw' hsep h' ih ih'

/-- What follows a spelled value in a text is not looked at. -/
theorem parse_eq {v : Var} {t : Str} (h : Spells (.value v) t) (suffix : Str) :
    parse (t ++ suffix) = .ok v := by
  have hfuel : 2 * t.length + 1 ≤ 2 * (t ++ suffix).length + 1 := by
    rw [List.length_append]
    omega
  have hread := h.parsed _ hfuel (w := []) (by simp [Spaces]) (.start (t ++ suffix)) suffix rfl
  rw [parse, StateT.run', hread]
  rfl

end Spells

/-- A text that spells a value, or that does so with the character that ends it. -/
def Ends (v : Var) (t : Str) : Prop :=
  Spells (.value v) t ∨ Bare t ∧ v = .string t

/-- What may stand behind a string without quotes, which takes the first character along. -/
def Stops (sep : Str) : Prop :=
  (∃ w, sep = 32 :: w ∧ Spaces w) ∨ ∃ w, sep = 44 :: w ∧ Spaces w

theorem Stops.separates {sep : Str} (h : Stops sep) : Separates sep := by
  rcases h with ⟨w, rfl, hw⟩ | ⟨w, rfl, hw⟩
  · exact .inl (List.forall_mem_cons.mpr ⟨rfl, hw⟩)
  · exact .inr ⟨[], w, rfl, nofun, hw⟩

theorem Stops.exists_stop {sep : Str} (h : Stops sep) :
    ∃ stop ∈ otherStop, ∃ w, sep = stop :: w ∧ Spaces w := by
  rcases h with ⟨w, rfl, hw⟩ | ⟨w, rfl, hw⟩
  · exact ⟨32, by decide, w, rfl, hw⟩
  · exact ⟨44, by decide, w, rfl, hw⟩

theorem stops_replicate {n : Nat} (h : n ≠ 0) : Stops (List.replicate n 32) := by
  obtain ⟨n, rfl⟩ := Nat.exists_eq_succ_of_ne_zero h
  refine .inl ⟨List.replicate n 32, List.replicate_succ, fun a ha => ?_⟩
  rw [List.eq_of_mem_replicate ha]
  rfl

theorem Ends.item {v : Var} {items : List Var} {t sep t' : Str} (h : Ends v t) (hsep : Stops sep)
    (h' : Spells (.items items) t') : Spells (.items (v :: items)) (t ++ (sep ++ t')) := by
  rcases h with h | ⟨hbare, rfl⟩
  · exact .item h hsep.separates h'
  · obtain ⟨stop, hstop, w, rfl, hw⟩ := hsep.exists_stop
    have hspelled := Spells.item (.bare hbare hstop) (.inl hw) h'
    rwa [List.append_assoc] at hspelled

theorem Ends.member {key : Str} {v : Var} {members : List (Str × Var)} {w w' t sep t' : Str}
    (h : Ends v t) (hkey : 34 ∉ key) (hw : Spaces w) (hw' : Spaces w') (hsep : Stops sep)
    (h' : Spells (.members members) t') :
    Spells (.members ((key, v) :: members))
      (34 :: (key ++ 34 :: (w ++ 58 :: (w' ++ (t ++ (sep ++ t')))))) := by
  rcases h with h | ⟨hbare, rfl⟩
  · exact .member hkey hw hw' h hsep.separates h'
  · obtain ⟨stop, hstop, w'', rfl, hw''⟩ := hsep.exists_stop
    have hspelled := Spells.member hkey hw hw' (.bare hbare hstop) (.inl hw'') h'
    rwa [List.append_assoc] at hspelled

section Entries

variable {α : Type} {key text : α → Str} {view : α → Var} {entries : List α}

/-- Elements with a comma and a space between them. -/
theorem spells_items (h : ∀ a ∈ entries, Ends (view a) (text a)) (hne : entries ≠ []) :
    Spells (.items (entries.map view))
      (List.intercalate [44, 32] (entries.map text) ++ [32]) := by
  induction entries with
  | nil => exact absurd rfl hne
  | cons a entries ih =>
    rw [List.forall_mem_cons] at h
    cases entries with
    | nil =>
      have hlast := h.1.item (.inl ⟨[], rfl, nofun⟩) .noItems
      simpa [List.intercalate] using hlast
    | cons b entries =>
      have hstops : Stops [44, 32] := .inr ⟨[32], rfl, by decide⟩
      have hitem := h.1.item hstops (ih h.2 (List.cons_ne_nil b entries))
      simpa [List.intercalate, List.intersperse] using hitem

theorem spells_vector (h : ∀ a ∈ entries, Ends (view a) (text a)) :
    Spells (.value (.vector (entries.map view)))
      (91 :: 32 :: (List.intercalate [44, 32] (entries.map text) ++ [32, 93])) := by
  by_cases hne : entries = []
  · subst hne
    exact Spells.vector (w := [32, 32]) (by decide) .noItems
  · have hvector := Spells.vector (w := [32]) (by decide) (spells_items h hne)
    simpa using hvector

/-- A member with a space on either side of the colon. -/
def memberText (key text : Str) : Str := 34 :: (key ++ 34 :: 32 :: 58 :: 32 :: text)

/-- Members with a comma and a space between them. -/
theorem spells_members (hkeys : ∀ a ∈ entries, 34 ∉ key a)
    (h : ∀ a ∈ entries, Ends (view a) (text a)) (hne : entries ≠ []) :
    Spells (.members (entries.map fun a => (key a, view a)))
      (List.intercalate [44, 32] (entries.map fun a => memberText (key a) (text a)) ++ [32]) := by
  induction entries with
  | nil => exact absurd rfl hne
  | cons a entries ih =>
    rw [List.forall_mem_cons] at h hkeys
    have hspace : Spaces [32] := by decide
    cases entries with
    | nil =>
      have hlast := h.1.member hkeys.1 hspace hspace (.inl ⟨[], rfl, nofun⟩) .noMembers
      simpa [List.intercalate, memberText] using hlast
    | cons b entries =>
      have hstops : Stops [44, 32] := .inr ⟨[32], rfl, by decide⟩
      have hmember := h.1.member hkeys.1 hspace hspace hstops
        (ih hkeys.2 h.2 (List.cons_ne_nil b entries))
      simpa [List.intercalate, List.intersperse, memberText] using hmember

theorem spells_struct (hkeys : ∀ a ∈ entries, 34 ∉ key a)
    (h : ∀ a ∈ entries, Ends (view a) (text a)) :
    Spells (.value (.struct (SortedMaps.insertAll [] (entries.map fun a => (key a, view a)))))
      (123 :: 32 :: (List.intercalate [44, 32]
        (entries.map fun a => memberText (key a) (text a)) ++ [32, 125])) := by
  by_cases hne : entries = []
  · subst hne
    exact Spells.struct (w := [32, 32]) (by decide) .noMembers
  · have hstruct := Spells.struct (w := [32]) (by decide) (spells_members hkeys h hne)
    simpa using hstruct

/-- The lines of an object, each behind `n` spaces, without the first of these indents. -/
def objectLines (n : Nat) : List Str → Str
  | [] => []
  | [line] => line ++ List.replicate (n - 2) 32
  | line :: lines => line ++ 44 :: (List.replicate n 32 ++ objectLines n lines)

theorem spaces_replicate (n : Nat) : Spaces (List.replicate n 32) := by
  intro a ha
  rw [List.eq_of_mem_replicate ha]
  rfl

/-- Nothing stands between the last line and the bracket behind it if `n` is 2. -/
theorem spells_objectLines {n : Nat} (hn : 2 ≤ n) (hkeys : ∀ a ∈ entries, 34 ∉ key a)
    (h : ∀ a ∈ entries, Ends (view a) (text a))
    (hlast : n = 2 → ∀ a ∈ entries.getLast?, Spells (.value (view a)) (text a))
    (hne : entries ≠ []) :
    Spells (.members (entries.map fun a => (key a, view a)))
      (objectLines n (entries.map fun a => memberText (key a) (text a))) := by
  induction entries with
  | nil => exact absurd rfl hne
  | cons a entries ih =>
    rw [List.forall_mem_cons] at h hkeys
    have hspace : Spaces [32] := by decide
    cases entries with
    | nil =>
      have hend : Spells (.members [(key a, view a)]) (34 :: (key a ++ 34 :: ([32] ++ 58 ::
          ([32] ++ (text a ++ (List.replicate (n - 2) 32 ++ [])))))) := by
        by_cases htwo : n = 2
        · exact .member hkeys.1 hspace hspace (hlast htwo a rfl) (.inl (spaces_replicate _))
            .noMembers
        · exact h.1.member hkeys.1 hspace hspace (stops_replicate (by omega)) .noMembers
      simpa [objectLines, memberText] using hend
    | cons b entries =>
      have hrest := ih hkeys.2 h.2 (fun htwo c hc => hlast htwo c (by
        rw [List.getLast?_cons_cons]
        exact hc)) (List.cons_ne_nil b entries)
      have hstops : Stops (44 :: List.replicate n 32) := .inr ⟨_, rfl, spaces_replicate n⟩
      have hmember := h.1.member hkeys.1 hspace hspace hstops hrest
      simpa [objectLines, memberText] using hmember

theorem spells_object {n : Nat} (hn : 2 ≤ n) (hkeys : ∀ a ∈ entries, 34 ∉ key a)
    (h : ∀ a ∈ entries, Ends (view a) (text a))
    (hlast : n = 2 → ∀ a ∈ entries.getLast?, Spells (.value (view a)) (text a))
    (hne : entries ≠ []) :
    Spells (.value (.struct (SortedMaps.insertAll [] (entries.map fun a => (key a, view a)))))
      (123 :: (List.replicate n 32 ++ (objectLines n
        (entries.map fun a => memberText (key a) (text a)) ++ [125]))) :=
  .struct (spaces_replicate n) (spells_objectLines hn hkeys h hlast hne)

end Entries

end Starfall.Vars
