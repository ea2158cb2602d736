import Starfall.Common.Spelling

/-! What `Var::parse` makes of any text.  It comes to an end, its values are canonical, and it does
not leave a text that ends with one of the characters that end a string without quotes. -/

namespace Starfall.Vars

open ProofKit ProofKit.Reading

/-- A value of strings, vectors and structs whose strings have no quotes. -/
inductive Canonical : Var → Prop
  | string {s : Str} (h : 34 ∉ s) : Canonical (.string s)
  | vector {items : List Var} (h : ∀ v ∈ items, Canonical v) : Canonical (.vector items)
  | struct {members : List (Str × Var)} (hsorted : SortedMaps.Sorted members)
      (hkeys : ∀ m ∈ members, 34 ∉ m.1) (h : ∀ m ∈ members, Canonical m.2) :
      Canonical (.struct members)

/-- A text that ends where a string without quotes does. -/
def Closed (val : Str) : Prop := ∃ front, ∃ stop ∈ otherStop, val = front ++ [stop]

/-- The position is not before `n`, and in a closed text it is not behind the end. -/
def Within (val : Str) (n : Nat) (c : Cursor UInt8) : Prop :=
  c.data = val ∧ n ≤ c.it ∧ (Closed val → c.it ≤ val.length)

/-- The parser throws, or it leaves a text that is not closed. -/
def Excused (val : Str) (e : ParseError) : Prop :=
  e ≠ .outOfFuel ∧ (Closed val → ∀ fault, e ≠ .undefined fault)

variable {val : Str} {n : Nat} {c : Cursor UInt8}

theorem excused_dataFormat (val : Str) (message : String) :
    Excused val (.dataFormat message) := ⟨nofun, fun _ _ => nofun⟩

namespace Within

theorem advance (h : Within val n c) {m k : Nat} (hm : m ≤ n + k)
    (hk : Closed val → c.it ≤ val.length → c.it + k ≤ val.length) :
    Within val m (c.advance k) := by
  obtain ⟨hdata, hn, hclosed⟩ := h
  exact ⟨hdata, by rw [Cursor.advance_it]; omega, fun hval => hk hval (hclosed hval)⟩

theorem length_rest (h : Within val n c) : c.rest.length = val.length - c.it := by
  rw [c.length_rest, h.1]

theorem self (h : Within val n c) : Within val c.it c := ⟨h.1, Nat.le_refl _, h.2.2⟩

theorem of_le {m : Nat} (h : Within val n c) (hm : m ≤ c.it) : Within val m c :=
  ⟨h.1, hm, h.2.2⟩

end Within

theorem yields_peek (h : Within val n c) :
    Yields peek c (fun x c' => c = c' ∧ c.it ≤ val.length ∧ x = c.rest.headD 0)
      (Excused val) := by
  obtain ⟨hdata, -, hclosed⟩ := h
  by_cases hle : c.it ≤ c.data.length
  · exact .of_ok (peek_of_le hle) ⟨rfl, hdata ▸ hle, rfl⟩
  · refine .of_error (peek_of_lt (Nat.lt_of_not_le hle)) ⟨nofun, fun hval => ?_⟩
    exact absurd (hdata ▸ hclosed hval) hle

theorem yields_skip {k : Nat} :
    Yields (skip k) c (fun _ c' => c' = c.advance k) (Excused val) := rfl

theorem yields_rest : Yields rest c (fun s c' => c = c' ∧ s = c.rest) (Excused val) := ⟨rfl, rfl⟩

theorem yields_more (h : Within val n c) :
    Yields more c (fun b c' => c = c' ∧ (b = true ↔ c.it < val.length)) (Excused val) := by
  refine .of_ok rfl ⟨rfl, ?_⟩
  rw [decide_eq_true_iff, h.1]

/-- What is not a zero is a character of the text. -/
theorem lt_of_headD {x : UInt8} (h : Within val n c) (hx : x = c.rest.headD 0) (hne : x ≠ 0) :
    c.it < val.length := by
  have hlength := h.length_rest
  cases hrest : c.rest with
  | nil =>
    rw [hrest] at hx
    exact absurd hx hne
  | cons y s =>
    rw [hrest, List.length_cons] at hlength
    omega

theorem yields_skipWhiteSpace (h : Within val n c) :
    Yields skipWhiteSpace c (fun _ c' => Within val n c') (Excused val) := by
  refine (yields_peek h).bind ?_
  rintro _ _ ⟨rfl, hle, -⟩
  refine yields_rest.bind ?_
  rintro _ _ ⟨rfl, rfl⟩
  refine .of_ok (skip_apply _ _) (h.advance (by omega) fun _ _ => ?_)
  have hspaces := (List.takeWhile_sublist isSpace (l := c.rest)).length_le
  have hlength := h.length_rest
  omega

theorem yields_skipComma (h : Within val n c) :
    Yields skipComma c (fun _ c' => Within val n c') (Excused val) := by
  refine (yields_skipWhiteSpace h).bind fun _ c h => ?_
  refine (yields_peek h).bind ?_
  rintro x _ ⟨rfl, hle, hx⟩
  split
  · rename_i hcomma
    have hlt := lt_of_headD h hx (by rw [hcomma]; decide)
    refine yields_skip.bind ?_
    rintro _ _ rfl
    exact yields_skipWhiteSpace (h.advance (by omega) fun _ _ => by omega)
  · exact .pure h

theorem findFirstOf_some {stops s : Str} {k : Nat} (h : findFirstOf stops s = some k) :
    k < s.length ∧ ∀ a ∈ s.take k, a ∉ stops := by
  obtain ⟨hk, -, hbefore⟩ := List.findIdx?_eq_some_iff_getElem.mp h
  refine ⟨hk, fun a ha hstop => ?_⟩
  obtain ⟨i, hi, rfl⟩ := List.getElem_of_mem ha
  rw [List.length_take] at hi
  refine hbefore i (by omega) ?_
  rw [List.getElem_take] at hstop
  simpa using hstop

theorem findFirstOf_closed {stops s front : Str} {stop : UInt8} (h : s = front ++ [stop])
    (hstop : stop ∈ stops) : ∃ k, findFirstOf stops s = some k ∧ k < s.length := by
  cases hfind : findFirstOf stops s with
  | some k => exact ⟨k, rfl, (findFirstOf_some hfind).1⟩
  | none =>
    rw [findFirstOf, List.findIdx?_eq_none_iff] at hfind
    have := hfind stop (by rw [h]; simp)
    simp [hstop] at this

theorem Closed.rest_eq (hval : Closed val) (h : Within val n c) (hlt : c.it < val.length) :
    ∃ front, ∃ stop ∈ otherStop, c.rest = front ++ [stop] := by
  obtain ⟨front, stop, hstop, rfl⟩ := hval
  rw [List.length_append, List.length_singleton] at hlt
  refine ⟨front.drop c.it, stop, hstop, ?_⟩
  rw [Cursor.rest, h.1, List.drop_append_of_le_length (by omega)]

theorem yields_parseString (h : Within val n c) (hlt : c.it < val.length) :
    Yields parseString c (fun s c' => 34 ∉ s ∧ Within val (c.it + 1) c') (Excused val) := by
  have hself := h.self
  have hlength := h.length_rest
  refine (yields_peek h).bind ?_
  rintro x _ ⟨rfl, hle, hx⟩
  split
  · refine yields_skip.bind ?_
    rintro _ _ rfl
    refine yields_rest.bind ?_
    rintro _ _ ⟨rfl, rfl⟩
    split
    · exact .of_error rfl (excused_dataFormat _ _)
    · rename_i stop hstop
      obtain ⟨hstop, hnone⟩ := findFirstOf_some hstop
      have hdrop : (c.advance 1).rest.length = c.rest.length - 1 := by
        rw [Cursor.rest_advance, List.length_drop]
      refine yields_skip.bind ?_
      rintro _ _ rfl
      refine .pure ⟨fun hmem => hnone 34 hmem (by decide), ?_⟩
      rw [Cursor.advance_advance]
      exact hself.advance (by omega) fun _ _ => by omega
  · refine yields_rest.bind ?_
    rintro _ _ ⟨rfl, rfl⟩
    dsimp only
    split
    · exact .of_error rfl (excused_dataFormat _ _)
    · rename_i hsafe
      refine yields_skip.bind ?_
      rintro _ _ rfl
      refine .pure ⟨fun hmem => ?_, ?_⟩
      · cases hquote : findFirstOf strStop c.rest with
        | none =>
          rw [findFirstOf, List.findIdx?_eq_none_iff] at hquote
          exact absurd (hquote 34 (List.mem_of_mem_take hmem)) (by decide)
        | some k =>
          rw [hquote] at hsafe
          have hk : (findFirstOf otherStop c.rest).getD c.rest.length ≤ k := by simpa using hsafe
          exact (findFirstOf_some hquote).2 34 (List.take_subset_take_left _ hk hmem) (by decide)
      · refine hself.advance (by omega) fun hval _ => ?_
        obtain ⟨front, stop, hstop, hrest⟩ := hval.rest_eq h hlt
        obtain ⟨k, hk, hlt⟩ := findFirstOf_closed hrest hstop
        rw [hk, Option.getD_some]
        omega

theorem yields_parseKey (h : Within val n c) (hlt : c.it < val.length) :
    Yields parseKey c (fun s c' => 34 ∉ s ∧ Within val (c.it + 1) c') (Excused val) := by
  refine (yields_parseString h hlt).bind ?_
  rintro key c' ⟨hkey, h⟩
  refine (yields_skipWhiteSpace h).bind fun _ c' h => ?_
  refine (yields_peek h).bind ?_
  rintro x _ ⟨rfl, -, hx⟩
  split
  · exact .of_error rfl (excused_dataFormat _ _)
  · rename_i hcolon
    have hlt := lt_of_headD h hx (by rw [not_not.mp hcolon]; decide)
    refine yields_skip.bind ?_
    rintro _ _ rfl
    exact .pure ⟨hkey, h.advance (by omega) fun _ _ => by omega⟩

/-- The members of a struct that is canonical so far. -/
def CanonicalMembers (members : List (Str × Var)) : Prop :=
  SortedMaps.Sorted members ∧ ∀ m ∈ members, 34 ∉ m.1 ∧ Canonical m.2

theorem CanonicalMembers.struct {members : List (Str × Var)} (h : CanonicalMembers members) :
    Canonical (.struct members) :=
  .struct h.1 (fun m hm => (h.2 m hm).1) fun m hm => (h.2 m hm).2

theorem CanonicalMembers.insert {members : List (Str × Var)} (h : CanonicalMembers members)
    {key : Str} {v : Var} (hkey : 34 ∉ key) (hv : Canonical v) :
    CanonicalMembers (SortedMaps.insert members key v) := by
  refine ⟨SortedMaps.sorted_insert h.1 key v, fun m hm => ?_⟩
  rcases SortedMaps.mem_of_mem_insert hm with rfl | hm
  · exact ⟨hkey, hv⟩
  · exact h.2 m hm

/-- With fuel for what is left of the text, the parser and its loops return canonical values or
throw.  A value takes at least one character. -/
structure Accepts (val : Str) (fuel : Nat) : Prop where
  value : ∀ {n c}, Within val n c → 2 * (val.length - n) + 1 ≤ fuel →
    Yields (parseFrom fuel) c
      (fun v c' => Canonical v ∧ Within val n c' ∧ (c.it < val.length → Within val (n + 1) c'))
      (Excused val)
  items : ∀ {n c}, Within val n c → 2 * (val.length - n) + 2 ≤ fuel →
    Yields (parseItems fuel) c (fun items c' => (∀ v ∈ items, Canonical v) ∧ Within val n c')
      (Excused val)
  members : ∀ {n c map}, Within val n c → 2 * (val.length - n) + 2 ≤ fuel →
    CanonicalMembers map →
    Yields (parseMembers fuel map) c (fun ms c' => CanonicalMembers ms ∧ Within val n c')
      (Excused val)

/-- What `parseObject` and `parseArray` do around their loops. -/
theorem yields_bracketed {α : Type} {loop : Parse α} {f : α → Var} {P : α → Prop}
    {message : String} {stop : UInt8} (hstop : stop ≠ 0) (hf : ∀ a, P a → Canonical (f a))
    (h : Within val n c) (hlt : c.it < val.length)
    (hloop : ∀ {c}, Within val (n + 1) c →
      Yields loop c (fun a c' => P a ∧ Within val (n + 1) c') (Excused val)) :
    Yields (do
      skip 1
      skipWhiteSpace
      let a ← loop
      if (← peek) ≠ stop then
        throw (.dataFormat message)
      else
        skip 1
        pure (f a)) c (fun v c' => Canonical v ∧ Within val (n + 1) c') (Excused val) := by
  have hn := h.2.1
  refine yields_skip.bind ?_
  rintro _ _ rfl
  have hopen : Within val (n + 1) (c.advance 1) := h.advance (by omega) fun _ _ => by omega
  refine (yields_skipWhiteSpace hopen).bind fun _ c' h => ?_
  refine (hloop h).bind ?_
  rintro a c' ⟨ha, h⟩
  refine (yields_peek h).bind ?_
  rintro x _ ⟨rfl, -, hx⟩
  split
  · exact .of_error rfl (excused_dataFormat _ _)
  · rename_i hclose
    have hlt := lt_of_headD h hx (by rwa [not_not.mp hclose])
    refine yields_skip.bind ?_
    rintro _ _ rfl
    exact .pure ⟨hf a ha, h.advance (by omega) fun _ _ => by omega⟩

theorem Accepts.array {fuel : Nat} (ih : Accepts val fuel) (h : Within val n c)
    (hlt : c.it < val.length) (hfuel : 2 * (val.length - n) + 1 ≤ fuel + 1) :
    Yields (parseArray (parseItems fuel)) c (fun v c' => Canonical v ∧ Within val (n + 1) c')
      (Excused val) := by
  have hn := h.2.1
  exact yields_bracketed (by decide) (fun items hitems => .vector hitems) h hlt
    fun h => ih.items h (by omega)

theorem Accepts.object {fuel : Nat} (ih : Accepts val fuel) (h : Within val n c)
    (hlt : c.it < val.length) (hfuel : 2 * (val.length - n) + 1 ≤ fuel + 1) :
    Yields (parseObject (parseMembers fuel [])) c
      (fun v c' => Canonical v ∧ Within val (n + 1) c') (Excused val) := by
  have hn := h.2.1
  exact yields_bracketed (by decide) (fun members hmembers => hmembers.struct) h hlt
    fun h => ih.members h (by omega) ⟨List.Pairwise.nil, nofun⟩

theorem Accepts.value_succ {fuel : Nat} (ih : Accepts val fuel) (h : Within val n c)
    (hfuel : 2 * (val.length - n) + 1 ≤ fuel + 1) :
    Yields (parseFrom (fuel + 1)) c
      (fun v c' => Canonical v ∧ Within val n c' ∧ (c.it < val.length → Within val (n + 1) c'))
      (Excused val) := by
  have hn := h.2.1
  refine (yields_skipWhiteSpace h.self).bind fun _ c' h' => ?_
  have hself := h'.of_le (Nat.le_trans hn h'.2.1)
  have hit := h'.2.1
  refine (yields_more hself).bind ?_
  rintro more _ ⟨rfl, hmore⟩
  split
  · rename_i htrue
    have hlt := hmore.mp htrue
    have weaken : ∀ (v : Var) (c'' : Cursor UInt8), Canonical v ∧ Within val (n + 1) c'' →
        Canonical v ∧ Within val n c'' ∧ (c.it < val.length → Within val (n + 1) c'') :=
      fun v c'' hv => ⟨hv.1, hv.2.of_le (by have := hv.2.2.1; omega), fun _ => hv.2⟩
    refine (yields_peek hself).bind ?_
    rintro x _ ⟨rfl, -, -⟩
    split
    · exact (ih.object hself hlt hfuel).mono weaken
    · split
      · exact (ih.array hself hlt hfuel).mono weaken
      · refine (yields_parseString hself hlt).map ?_
        rintro s c'' ⟨hs, h''⟩
        exact weaken _ _ ⟨.string hs, h''.of_le (by have := h''.2.1; omega)⟩
  · rename_i hfalse
    refine .pure ⟨.string List.not_mem_nil, hself, fun hlt => hself.of_le ?_⟩
    have : ¬c'.it < val.length := fun hlt' => hfalse (hmore.mpr hlt')
    omega

theorem Accepts.items_succ {fuel : Nat} (ih : Accepts val fuel) (h : Within val n c)
    (hfuel : 2 * (val.length - n) + 2 ≤ fuel + 1) :
    Yields (parseItems (fuel + 1)) c
      (fun items c' => (∀ v ∈ items, Canonical v) ∧ Within val n c') (Excused val) := by
  have hn := h.2.1
  refine (yields_peek h).bind ?_
  rintro x _ ⟨rfl, -, hx⟩
  refine (yields_more h).bind ?_
  rintro more _ ⟨rfl, hmore⟩
  split
  · rename_i hnext
    have hlt := hmore.mp hnext.2
    refine (ih.value h (by omega)).bind ?_
    rintro v c' ⟨hv, -, h⟩
    refine (yields_skipComma (h hlt)).bind fun _ c' h => ?_
    refine (ih.items h (by omega)).bind ?_
    rintro items c' ⟨hitems, h⟩
    exact .pure ⟨List.forall_mem_cons.mpr ⟨hv, hitems⟩, h.of_le (by have := h.2.1; omega)⟩
  · exact .pure ⟨nofun, h⟩

theorem Accepts.members_succ {fuel : Nat} (ih : Accepts val fuel) {map : List (Str × Var)}
    (h : Within val n c) (hfuel : 2 * (val.length - n) + 2 ≤ fuel + 1)
    (hmap : CanonicalMembers map) :
    Yields (parseMembers (fuel + 1) map) c (fun ms c' => CanonicalMembers ms ∧ Within val n c')
      (Excused val) := by
  have hn := h.2.1
  refine (yields_peek h).bind ?_
  rintro x _ ⟨rfl, -, hx⟩
  refine (yields_more h).bind ?_
  rintro more _ ⟨rfl, hmore⟩
  split
  · rename_i hnext
    have hlt := hmore.mp hnext.2
    refine (yields_parseKey h hlt).bind ?_
    rintro key c' ⟨hkey, h⟩
    have h : Within val (n + 1) c' := h.of_le (by have := h.2.1; omega)
    refine (ih.value h (by omega)).bind ?_
    rintro v c' ⟨hv, h, -⟩
    refine (yields_skipComma h).bind fun _ c' h => ?_
    refine (ih.members h (by omega) (hmap.insert hkey hv)).mono ?_
    rintro ms c' ⟨hms, h⟩
    exact ⟨hms, h.of_le (by have := h.2.1; omega)⟩
  · exact .pure ⟨hmap, h⟩

theorem accepts (val : Str) (fuel : Nat) : Accepts val fuel := by
  induction fuel with
  | zero => exact ⟨fun _ h => by omega, fun _ h => by omega, fun _ h => by omega⟩
  | succ fuel ih =>
    exact ⟨fun h hfuel => ih.value_succ h hfuel, fun h hfuel => ih.items_succ h hfuel,
      fun h hfuel hmap => ih.members_succ h hfuel hmap⟩

/-- A text has a canonical value, or the parser throws, or it leaves a text that is not closed. -/
theorem parse_cases (val : Str) :
    (∃ v, parse val = .ok v ∧ Canonical v) ∨
      (∃ message, parse val = .error (.dataFormat message)) ∨
      ∃ fault, parse val = .error (.undefined fault) ∧ ¬Closed val := by
  have hstart : Within val 0 (.start val) := ⟨rfl, Nat.zero_le _, fun _ => Nat.zero_le _⟩
  have haccepts := (accepts val (2 * val.length + 1)).value hstart (by omega)
  rw [parse, StateT.run']
  cases hparse : parseFrom (2 * val.length + 1) (.start val) with
  | ok p =>
    obtain ⟨v, c⟩ := p
    exact .inl ⟨v, rfl, (haccepts.ok hparse).1⟩
  | error e =>
    obtain ⟨hfuel, hundefined⟩ := haccepts.error hparse
    cases e with
    | dataFormat message => exact .inr (.inl ⟨message, rfl⟩)
    | undefined fault => exact .inr (.inr ⟨fault, rfl, fun hval => hundefined hval fault rfl⟩)
    | outOfFuel => exact absurd rfl hfuel

theorem canonical_of_parse {v : Var} (h : parse val = .ok v) : Canonical v := by
  rcases parse_cases val with ⟨v', hv', hcanonical⟩ | ⟨message, hmessage⟩ | ⟨fault, hfault, -⟩
  · rw [h] at hv'
    cases hv'
    exact hcanonical
  · rw [h] at hmessage
    cases hmessage
  · rw [h] at hfault
    cases hfault

theorem Canonical.member {members : List (Str × Var)} (h : Canonical (.struct members))
    {m : Str × Var} (hm : m ∈ members) : 34 ∉ m.1 ∧ Canonical m.2 := by
  cases h with
  | struct hsorted hkeys h => exact ⟨hkeys m hm, h m hm⟩

theorem Canonical.not_quote {s : Str} (h : Canonical (.string s)) : 34 ∉ s := by
  cases h with
  | string h => exact h

end Starfall.Vars
