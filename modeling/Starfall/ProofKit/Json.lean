import Mathlib.Data.List.Basic

/-! Texts of JSON and the values that they spell.  Texts are lists of bytes, and a number or a
string is known by its spelling.  A value that stands at the front of a text stands at the front of
every longer one too, as long as it is not a number that the rest could go on with. -/

namespace ProofKit.Json

/-- A value, with the spellings of its numbers and strings. -/
inductive Value
  | null
  | boolean (b : Bool)
  | number (spelling : List UInt8)
  | string (spelling : List UInt8)
  | array (elements : List Value)
  | object (members : List (List UInt8 × Value))
  deriving Repr

def Value.isObject : Value → Bool
  | .object _ => true
  | _ => false

/-! ### Characters -/

def isSpace (c : UInt8) : Bool := c == 32 || c == 9 || c == 10 || c == 13

def isDigit (c : UInt8) : Bool := 48 ≤ c && c ≤ 57

def isHex (c : UInt8) : Bool :=
  isDigit c || (65 ≤ c && c ≤ 70) || (97 ≤ c && c ≤ 102)

/-- What may stand in a number: digits, `+`, `-`, `.`, `E` and `e`. -/
def isNumeric (c : UInt8) : Bool :=
  isDigit c || c == 43 || c == 45 || c == 46 || c == 69 || c == 101

/-- What may follow a backslash, apart from `u`: quotes, slashes, `b`, `f`, `n`, `r` and `t`. -/
def isEscape (c : UInt8) : Bool :=
  c == 34 || c == 92 || c == 47 || c == 98 || c == 102 || c == 110 || c == 114 || c == 116

def skip (s : List UInt8) : List UInt8 := s.dropWhile isSpace

/-! ### Numbers and strings -/

def isExponent : List UInt8 → Bool
  | [] => true
  | c :: s =>
    let digits := if s.head? = some 43 ∨ s.head? = some 45 then s.tail else s
    (c == 69 || c == 101) && digits ≠ [] && digits.all isDigit

def isFraction : List UInt8 → Bool
  | 46 :: s => s.takeWhile isDigit ≠ [] && isExponent (s.dropWhile isDigit)
  | s => isExponent s

/-- An optional minus, digits without a leading zero, a fraction and an exponent. -/
def isNumber (s : List UInt8) : Bool :=
  let s := if s.head? = some 45 then s.tail else s
  let digits := s.takeWhile isDigit
  (digits == [48] || (digits ≠ [] && digits.head? ≠ some 48)) && isFraction (s.dropWhile isDigit)

/-- The number at the front of a text, and what follows it. -/
def readNumber (s : List UInt8) : Option (List UInt8 × List UInt8) :=
  if isNumber (s.takeWhile isNumeric) then
    some (s.takeWhile isNumeric, s.dropWhile isNumeric)
  else none

/-- Where a reader is in a string: after a backslash, or before that many hexadecimal digits and one
more. -/
inductive Mode
  | plain
  | escape
  | hex (more : Nat)

/-- What a character does to a string: it ends it, goes on with it, or may not stand there. -/
def Mode.next : Mode → UInt8 → Option (Option Mode)
  | .plain, c =>
    if c = 34 then some none
    else if c = 92 then some (some .escape)
    else if 32 ≤ c then some (some .plain)
    else none
  | .escape, c =>
    if c = 117 then some (some (.hex 3))
    else if isEscape c then some (some .plain)
    else none
  | .hex 0, c => if isHex c then some (some .plain) else none
  | .hex (more + 1), c => if isHex c then some (some (.hex more)) else none

/-- The spelling of the rest of a string, and what follows its last quote. -/
def readString : Mode → List UInt8 → Option (List UInt8 × List UInt8)
  | _, [] => none
  | mode, c :: s =>
    match mode.next c with
    | some (some mode) => (readString mode s).map fun r => (c :: r.1, r.2)
    | some none => some ([], s)
    | none => none

/-- A word at the front of a text. -/
def readWord (w : List UInt8) (v : Value) (s : List UInt8) : Option (Value × List UInt8) :=
  if w.isPrefixOf s then some (v, s.drop w.length) else none

/-! ### Values -/

mutual

/-- The value at the front of a text, and what follows it.  The fuel bounds how deep and how long
the value is. -/
def readValue : Nat → List UInt8 → Option (Value × List UInt8)
  | 0, _ => none
  | _ + 1, [] => none
  | fuel + 1, c :: s =>
    if c = 123 then
      if (skip s).head? = some 125 then some (.object [], (skip s).tail)
      else (readMembers fuel s).map fun r => (.object r.1, r.2)
    else if c = 91 then
      if (skip s).head? = some 93 then some (.array [], (skip s).tail)
      else (readElements fuel s).map fun r => (.array r.1, r.2)
    else if c = 34 then (readString .plain s).map fun r => (.string r.1, r.2)
    else if c = 116 then readWord [114, 117, 101] (.boolean true) s
    else if c = 102 then readWord [97, 108, 115, 101] (.boolean false) s
    else if c = 110 then readWord [117, 108, 108] .null s
    else (readNumber (c :: s)).map fun r => (.number r.1, r.2)

/-- The elements of an array up to its end. -/
def readElements : Nat → List UInt8 → Option (List Value × List UInt8)
  | 0, _ => none
  | fuel + 1, s =>
    (readValue fuel (skip s)).bind fun r =>
      match skip r.2 with
      | 44 :: s => (readElements fuel s).map fun more => (r.1 :: more.1, more.2)
      | 93 :: s => some ([r.1], s)
      | _ => none

/-- The members of an object up to its end. -/
def readMembers : Nat → List UInt8 → Option (List (List UInt8 × Value) × List UInt8)
  | 0, _ => none
  | fuel + 1, s =>
    match skip s with
    | 34 :: s =>
      (readString .plain s).bind fun name =>
        match skip name.2 with
        | 58 :: s =>
          (readValue fuel (skip s)).bind fun r =>
            match skip r.2 with
            | 44 :: s => (readMembers fuel s).map fun more => ((name.1, r.1) :: more.1, more.2)
            | 125 :: s => some ([(name.1, r.1)], s)
            | _ => none
        | _ => none
    | _ => none

end

/-- The value that a text spells, with space around it. -/
def parse (s : List UInt8) : Option Value :=
  match readValue (s.length + 1) (skip s) with
  | some (v, rest) => if skip rest = [] then some v else none
  | none => none

/-! ### Longer texts -/

theorem skip_append {s : List UInt8} (h : skip s ≠ []) (t : List UInt8) :
    skip (s ++ t) = skip s ++ t := by
  have hempty : (s.dropWhile isSpace).isEmpty = false := by simpa [skip] using h
  rw [skip, List.dropWhile_append, hempty]
  rfl

theorem skip_cons_append {s rest : List UInt8} {c : UInt8} (h : skip s = c :: rest)
    (t : List UInt8) : skip (s ++ t) = c :: (rest ++ t) := by
  rw [skip_append (by simp [h]), h, List.cons_append]

theorem readNumber_append {s x rest : List UInt8} (h : readNumber s = some (x, rest))
    (hrest : rest ≠ []) (t : List UInt8) : readNumber (s ++ t) = some (x, rest ++ t) := by
  rw [readNumber] at h ⊢
  split at h
  · rename_i hnumber
    cases h
    have hempty : (s.dropWhile isNumeric).isEmpty = false := by simpa using hrest
    have hlength : (s.takeWhile isNumeric).length ≠ s.length := by
      intro heq
      have hsplit := congrArg List.length (s.takeWhile_append_dropWhile (p := isNumeric))
      rw [List.length_append, heq] at hsplit
      exact hrest (List.length_eq_zero_iff.mp (by omega))
    rw [List.takeWhile_append, if_neg hlength, if_pos hnumber, List.dropWhile_append, hempty]
    rfl
  · cases h

theorem readString_append {mode : Mode} {s x rest : List UInt8}
    (h : readString mode s = some (x, rest)) (t : List UInt8) :
    readString mode (s ++ t) = some (x, rest ++ t) := by
  induction s generalizing mode x with
  | nil => cases h
  | cons c s ih =>
    rw [readString] at h
    rw [List.cons_append, readString]
    cases hnext : mode.next c with
    | none =>
      rw [hnext] at h
      cases h
    | some next =>
      rw [hnext] at h
      cases next with
      | none =>
        cases h
        rfl
      | some mode =>
        obtain ⟨⟨y, after⟩, hread, h⟩ := Option.map_eq_some_iff.mp h
        cases h
        dsimp only
        rw [ih hread]
        rfl

theorem readWord_append {w s rest : List UInt8} {v v' : Value}
    (h : readWord w v s = some (v', rest)) (t : List UInt8) :
    readWord w v (s ++ t) = some (v', rest ++ t) := by
  rw [readWord] at h ⊢
  split at h
  · rename_i hprefix
    cases h
    obtain ⟨s, rfl⟩ := List.isPrefixOf_iff_prefix.mp hprefix
    simp [List.append_assoc]
  · cases h

/-- A value that cannot go on. -/
def Value.Ends : Value → Prop
  | .number _ => False
  | _ => True

/-- What the readers take off the front of a text they take off a longer one, also with more
fuel. -/
structure Extends (fuel : Nat) : Prop where
  value : ∀ {s rest : List UInt8} {v : Value}, readValue fuel s = some (v, rest) →
    v.Ends ∨ rest ≠ [] → ∀ {fuel'}, fuel ≤ fuel' → ∀ t,
      readValue fuel' (s ++ t) = some (v, rest ++ t)
  elements : ∀ {s rest : List UInt8} {vs : List Value}, readElements fuel s = some (vs, rest) →
    ∀ {fuel'}, fuel ≤ fuel' → ∀ t, readElements fuel' (s ++ t) = some (vs, rest ++ t)
  members : ∀ {s rest : List UInt8} {ms : List (List UInt8 × Value)},
    readMembers fuel s = some (ms, rest) →
    ∀ {fuel'}, fuel ≤ fuel' → ∀ t, readMembers fuel' (s ++ t) = some (ms, rest ++ t)

/-- What stands before a comma or the end of its array or object does not depend on what follows. -/
theorem Extends.item {fuel : Nat} (h : Extends fuel) {s rest rest' : List UInt8} {v : Value}
    {c : UInt8} (hread : readValue fuel (skip s) = some (v, rest)) (hskip : skip rest = c :: rest')
    {fuel' : Nat} (hle : fuel ≤ fuel') (t : List UInt8) :
    readValue fuel' (skip (s ++ t)) = some (v, rest ++ t) := by
  have hs : skip s ≠ [] := by
    intro hnil
    rw [hnil] at hread
    cases fuel <;> cases hread
  have hrest : rest ≠ [] := by
    rintro rfl
    cases hskip
  rw [skip_append hs]
  exact h.value hread (.inr hrest) hle t

theorem Extends.elements_succ {fuel : Nat} (h : Extends fuel) {s rest : List UInt8}
    {vs : List Value} (hread : readElements (fuel + 1) s = some (vs, rest)) {fuel' : Nat}
    (hle : fuel ≤ fuel') (t : List UInt8) :
    readElements (fuel' + 1) (s ++ t) = some (vs, rest ++ t) := by
  rw [readElements] at hread
  obtain ⟨⟨v, after⟩, hvalue, hread⟩ := Option.bind_eq_some_iff.mp hread
  dsimp only at hread
  split at hread
  · rename_i more hskip
    obtain ⟨⟨vs, rest⟩, hmore, hread⟩ := Option.map_eq_some_iff.mp hread
    cases hread
    rw [readElements, h.item hvalue hskip hle t, Option.bind_some]
    dsimp only
    rw [skip_cons_append hskip t]
    show (readElements fuel' (more ++ t)).map _ = _
    rw [h.elements hmore hle t]
    rfl
  · rename_i more hskip
    cases hread
    rw [readElements, h.item hvalue hskip hle t, Option.bind_some]
    dsimp only
    rw [skip_cons_append hskip t]
    rfl
  · cases hread

theorem Extends.members_succ {fuel : Nat} (h : Extends fuel) {s rest : List UInt8}
    {ms : List (List UInt8 × Value)} (hread : readMembers (fuel + 1) s = some (ms, rest))
    {fuel' : Nat} (hle : fuel ≤ fuel') (t : List UInt8) :
    readMembers (fuel' + 1) (s ++ t) = some (ms, rest ++ t) := by
  rw [readMembers] at hread
  split at hread
  · rename_i quoted hquote
    obtain ⟨⟨name, after⟩, hname, hread⟩ := Option.bind_eq_some_iff.mp hread
    dsimp only at hread
    split at hread
    · rename_i text hcolon
      obtain ⟨⟨v, behind⟩, hvalue, hread⟩ := Option.bind_eq_some_iff.mp hread
      dsimp only at hread
      have hfirst (more : List UInt8) (c : UInt8) (hskip : skip behind = c :: more) :
          readMembers (fuel' + 1) (s ++ t) =
            match c :: (more ++ t) with
            | 44 :: s => (readMembers fuel' s).map fun more => ((name, v) :: more.1, more.2)
            | 125 :: s => some ([(name, v)], s)
            | _ => none := by
        rw [readMembers, skip_cons_append hquote t]
        show (readString .plain (quoted ++ t)).bind _ = _
        rw [readString_append hname t, Option.bind_some]
        dsimp only
        rw [skip_cons_append hcolon t]
        show (readValue fuel' (skip (text ++ t))).bind _ = _
        rw [h.item hvalue hskip hle t, Option.bind_some]
        dsimp only
        rw [skip_cons_append hskip t]
      split at hread
      · rename_i more hskip
        obtain ⟨⟨ms, rest⟩, hmore, hread⟩ := Option.map_eq_some_iff.mp hread
        cases hread
        rw [hfirst more 44 hskip]
        show (readMembers fuel' (more ++ t)).map _ = _
        rw [h.members hmore hle t]
        rfl
      · rename_i more hskip
        cases hread
        exact hfirst _ 125 hskip
      · cases hread
    · cases hread
  · cases hread

theorem skip_of_elements {fuel : Nat} {s : List UInt8} {r : List Value × List UInt8}
    (h : readElements fuel s = some r) : skip s ≠ [] := by
  intro hnil
  cases fuel with
  | zero => cases h
  | succ fuel =>
    rw [readElements, hnil] at h
    cases fuel <;> cases h

theorem skip_of_members {fuel : Nat} {s : List UInt8}
    {r : List (List UInt8 × Value) × List UInt8} (h : readMembers fuel s = some r) :
    skip s ≠ [] := by
  intro hnil
  cases fuel with
  | zero => cases h
  | succ fuel =>
    rw [readMembers, hnil] at h
    cases h

/-- A bracket that is closed at once, or after what the reader finds. -/
theorem close_append {α : Type*} {read read' : List UInt8 → Option (α × List UInt8)}
    {s rest : List UInt8} {close : UInt8} {empty v : Value} {f : α → Value}
    (h : (if (skip s).head? = some close then some (empty, (skip s).tail)
      else (read s).map fun r => (f r.1, r.2)) = some (v, rest)) (t : List UInt8)
    (hskip : ∀ {r}, read s = some r → skip s ≠ [])
    (happend : ∀ {a rest}, read s = some (a, rest) → read' (s ++ t) = some (a, rest ++ t)) :
    (if (skip (s ++ t)).head? = some close then some (empty, (skip (s ++ t)).tail)
      else (read' (s ++ t)).map fun r => (f r.1, r.2)) = some (v, rest ++ t) := by
  split at h
  · rename_i hclose
    cases h
    obtain ⟨after, hafter⟩ := List.head?_eq_some_iff.mp hclose
    rw [skip_cons_append hafter t, hafter]
    simp
  · rename_i hopen
    obtain ⟨⟨a, rest⟩, hread, h⟩ := Option.map_eq_some_iff.mp h
    cases h
    rw [skip_append (hskip hread), List.head?_append_of_ne_nil _ (hskip hread), if_neg hopen,
      happend hread]
    rfl

theorem Extends.value_succ {fuel : Nat} (h : Extends fuel) {s rest : List UInt8} {v : Value}
    (hread : readValue (fuel + 1) s = some (v, rest)) (hends : v.Ends ∨ rest ≠ []) {fuel' : Nat}
    (hle : fuel ≤ fuel') (t : List UInt8) :
    readValue (fuel' + 1) (s ++ t) = some (v, rest ++ t) := by
  cases s with
  | nil => cases hread
  | cons c s =>
    rw [readValue] at hread
    rw [List.cons_append, readValue]
    by_cases hobject : c = 123
    · rw [if_pos hobject] at hread ⊢
      exact close_append hread t skip_of_members fun hmembers => h.members hmembers hle t
    rw [if_neg hobject] at hread ⊢
    by_cases harray : c = 91
    · rw [if_pos harray] at hread ⊢
      exact close_append hread t skip_of_elements fun helements => h.elements helements hle t
    rw [if_neg harray] at hread ⊢
    by_cases hstring : c = 34
    · rw [if_pos hstring] at hread ⊢
      obtain ⟨⟨x, rest⟩, hquoted, heq⟩ := Option.map_eq_some_iff.mp hread
      cases heq
      rw [readString_append hquoted t]
      rfl
    rw [if_neg hstring] at hread ⊢
    by_cases htrue : c = 116
    · rw [if_pos htrue] at hread ⊢
      exact readWord_append hread t
    rw [if_neg htrue] at hread ⊢
    by_cases hfalse : c = 102
    · rw [if_pos hfalse] at hread ⊢
      exact readWord_append hread t
    rw [if_neg hfalse] at hread ⊢
    by_cases hnull : c = 110
    · rw [if_pos hnull] at hread ⊢
      exact readWord_append hread t
    rw [if_neg hnull] at hread ⊢
    obtain ⟨⟨x, rest⟩, hnumber, heq⟩ := Option.map_eq_some_iff.mp hread
    cases heq
    rw [← List.cons_append, readNumber_append hnumber (hends.resolve_left id) t]
    rfl

theorem extends_fuel (fuel : Nat) : Extends fuel := by
  induction fuel with
  | zero => exact ⟨nofun, nofun, nofun⟩
  | succ fuel ih =>
    have hpred {fuel' : Nat} (hle : fuel + 1 ≤ fuel') : ∃ n, fuel' = n + 1 ∧ fuel ≤ n :=
      ⟨fuel' - 1, by omega, by omega⟩
    refine ⟨?_, ?_, ?_⟩
    · intro s rest v hread hends fuel' hle t
      obtain ⟨n, rfl, hn⟩ := hpred hle
      exact ih.value_succ hread hends hn t
    · intro s rest vs hread fuel' hle t
      obtain ⟨n, rfl, hn⟩ := hpred hle
      exact ih.elements_succ hread hn t
    · intro s rest ms hread fuel' hle t
      obtain ⟨n, rfl, hn⟩ := hpred hle
      exact ih.members_succ hread hn t

/-! ### Lists of texts -/

theorem readValue_of_parse_eq {s : List UInt8} {v : Value} (h : parse s = some v) :
    ∃ rest, readValue (s.length + 1) (skip s) = some (v, rest) ∧ skip rest = [] := by
  rw [parse] at h
  split at h
  · rename_i w rest hread
    split at h
    · rename_i hrest
      cases h
      exact ⟨rest, hread, hrest⟩
    · cases h
  · cases h

/-- A text of one value, before a character that ends it. -/
theorem readValue_of_parse {s : List UInt8} {v : Value} (h : parse s = some v) (hends : v.Ends)
    {fuel : Nat} (hfuel : s.length < fuel) {c : UInt8} (hc : isSpace c = false)
    (t : List UInt8) :
    ∃ rest, readValue fuel (skip (s ++ c :: t)) = some (v, rest) ∧ skip rest = c :: t := by
  obtain ⟨rest, hread, hrest⟩ := readValue_of_parse_eq h
  have hskip : skip s ≠ [] := by
    intro hnil
    rw [hnil] at hread
    cases hread
  refine ⟨rest ++ c :: t, ?_, ?_⟩
  · rw [skip_append hskip]
    exact (extends_fuel _).value hread (.inl hends) hfuel _
  · have hempty : (rest.dropWhile isSpace).isEmpty := by simpa [skip] using hrest
    rw [skip, List.dropWhile_append, if_pos hempty, List.dropWhile_cons_of_neg (by simp [hc])]

/-- The texts of values with commas between them spell the elements of an array. -/
theorem readElements_intercalate {texts : List (List UInt8)} {vs : List Value}
    (h : texts.map parse = vs.map some) (hends : ∀ v ∈ vs, v.Ends) (hne : texts ≠ [])
    {fuel : Nat} (hfuel : (List.intercalate [44] texts).length + 1 < fuel) (t : List UInt8) :
    readElements fuel (List.intercalate [44] texts ++ 93 :: t) = some (vs, t) := by
  induction texts generalizing vs fuel with
  | nil => exact absurd rfl hne
  | cons s texts ih =>
    obtain ⟨fuel, rfl⟩ : ∃ n, fuel = n + 1 := ⟨fuel - 1, by omega⟩
    cases vs with
    | nil => cases h
    | cons v vs =>
      rw [List.map_cons, List.map_cons, List.cons.injEq] at h
      have hv := hends v List.mem_cons_self
      cases texts with
      | nil =>
        obtain rfl : vs = [] := by simpa using h.2.symm
        rw [List.intercalate_singleton] at hfuel ⊢
        obtain ⟨rest, hread, hrest⟩ :=
          readValue_of_parse h.1 hv (show s.length < fuel by omega) (c := 93) rfl t
        rw [readElements, hread, Option.bind_some]
        dsimp only
        rw [hrest]
        rfl
      | cons s' texts =>
        have hlength : (List.intercalate [44] (s :: s' :: texts)).length =
            s.length + 1 + (List.intercalate [44] (s' :: texts)).length := by
          simp only [List.intercalate_cons_cons, List.length_append, List.length_singleton]
        rw [hlength] at hfuel
        have htext : List.intercalate [44] (s :: s' :: texts) ++ 93 :: t =
            s ++ 44 :: (List.intercalate [44] (s' :: texts) ++ 93 :: t) := by
          simp [List.intercalate_cons_cons]
        obtain ⟨rest, hread, hrest⟩ :=
          readValue_of_parse h.1 hv (show s.length < fuel by omega) (c := 44) rfl
            (List.intercalate [44] (s' :: texts) ++ 93 :: t)
        have hmore := ih h.2 (fun v hv => hends v (List.mem_cons_of_mem _ hv)) (by simp)
          (show (List.intercalate [44] (s' :: texts)).length + 1 < fuel by omega)
        rw [htext, readElements, hread, Option.bind_some]
        dsimp only
        rw [hrest]
        show (readElements fuel _).map _ = _
        rw [hmore]
        rfl

/-- An array of values that its text spells, with commas between them. -/
theorem readValue_array {texts : List (List UInt8)} {vs : List Value}
    (h : texts.map parse = vs.map some) (hends : ∀ v ∈ vs, v.Ends) (hne : texts ≠ [])
    {fuel : Nat} (hfuel : (List.intercalate [44] texts).length + 2 < fuel) (t : List UInt8) :
    readValue fuel (91 :: (List.intercalate [44] texts ++ 93 :: t)) = some (.array vs, t) := by
  obtain ⟨fuel, rfl⟩ : ∃ n, fuel = n + 1 := ⟨fuel - 1, by omega⟩
  have hread := readElements_intercalate h hends hne
    (show (List.intercalate [44] texts).length + 1 < fuel by omega) t
  have hopen : (skip (List.intercalate [44] texts ++ 93 :: t)).head? ≠ some 93 := by
    intro hclose
    obtain ⟨after, hafter⟩ := List.head?_eq_some_iff.mp hclose
    obtain ⟨fuel, rfl⟩ : ∃ n, fuel = n + 2 := ⟨fuel - 2, by omega⟩
    rw [readElements, hafter] at hread
    cases hread
  rw [readValue, if_neg (by decide), if_pos rfl, if_neg hopen, hread]
  rfl

/-- An object whose only member is such an array. -/
theorem parse_array_member {name : List UInt8}
    (hname : readString .plain (name ++ [34]) = some (name, [])) {texts : List (List UInt8)}
    {vs : List Value} (h : texts.map parse = vs.map some) (hends : ∀ v ∈ vs, v.Ends)
    (hne : texts ≠ []) :
    parse (123 :: 34 :: (name ++ 34 :: 58 :: 91 :: (List.intercalate [44] texts ++ [93, 125]))) =
      some (.object [(name, .array vs)]) := by
  have hlength : (123 :: 34 :: (name ++ 34 :: 58 :: 91 ::
      (List.intercalate [44] texts ++ [93, 125]))).length =
        name.length + (List.intercalate [44] texts).length + 7 := by
    simp only [List.length_cons, List.length_append, List.length_nil]
    omega
  have hquoted : readString .plain
      (name ++ 34 :: 58 :: 91 :: (List.intercalate [44] texts ++ [93, 125])) =
        some (name, 58 :: 91 :: (List.intercalate [44] texts ++ [93, 125])) := by
    have happend := readString_append hname
      (58 :: 91 :: (List.intercalate [44] texts ++ [93, 125]))
    rwa [List.append_assoc] at happend
  have harray := readValue_array h hends hne
    (show (List.intercalate [44] texts).length + 2 <
      name.length + (List.intercalate [44] texts).length + 6 by omega) [125]
  have hmembers : readMembers (name.length + (List.intercalate [44] texts).length + 7)
      (34 :: (name ++ 34 :: 58 :: 91 :: (List.intercalate [44] texts ++ [93, 125]))) =
        some ([(name, .array vs)], []) := by
    show (readString .plain
      (name ++ 34 :: 58 :: 91 :: (List.intercalate [44] texts ++ [93, 125]))).bind _ = _
    rw [hquoted, Option.bind_some]
    show (readValue _ (91 :: (List.intercalate [44] texts ++ [93, 125]))).bind _ = _
    rw [harray]
    rfl
  rw [parse, hlength]
  show (match (readMembers (name.length + (List.intercalate [44] texts).length + 7)
      (34 :: (name ++ 34 :: 58 :: 91 ::
        (List.intercalate [44] texts ++ [93, 125])))).map fun r => (Value.object r.1, r.2) with
    | some (v, rest) => if skip rest = [] then some v else none
    | none => none) = _
  rw [hmembers]
  rfl

end ProofKit.Json
