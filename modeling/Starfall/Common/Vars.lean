import Starfall.Common.Buffer
import Starfall.ProofKit.SortedMaps

/-! `Poco::Dynamic::Var`: the values that texts are parsed into, and `Var::parse`.  A text without
quotes is cut at the next space, comma or closing bracket, which is taken with it. -/

namespace Starfall.Vars

open ProofKit ProofKit.Reading

/-- What a `Var` holds: nothing, a string, a number, a vector, a `DynamicStruct`, or a
`JSON::Object`.  The members of the last two are in the order of their names. -/
inductive Var
  | empty
  | string (s : Str)
  | number (n : UInt32)
  | vector (items : List Var)
  | struct (members : List (Str × Var))
  | object (members : List (Str × Var))
  deriving Repr

inductive ParseError
  /-- A `Poco::DataFormatException`. -/
  | dataFormat (message : String)
  | undefined (fault : Fault)
  | outOfFuel
  deriving DecidableEq, Repr

abbrev Parse (α : Type) := Reader UInt8 ParseError α

/-- What `std::isspace` holds of.  A byte from 128 on is a negative `char`, which is no space. -/
def isSpace (c : UInt8) : Bool := c == 32 || 9 ≤ c && c ≤ 13

/-- `STR_STOP` -/
def strStop : Str := Str.ofString "\""

/-- `OTHER_STOP` -/
def otherStop : Str := Str.ofString " ,]\x7d"

/-- `val[pos]`, which is a zero at the end of the string. -/
def peek : Parse UInt8 := fun c =>
  if c.it ≤ c.data.length then .ok (c.rest.headD 0, c)
  else .error (.undefined (.outOfRange c.it))

/-- `pos < val.size()` -/
def more : Parse Bool := fun c => .ok (c.it < c.data.length, c)

def skip (n : Nat) : Parse Unit := fun c => .ok ((), c.advance n)

/-- What is left from `pos` on. -/
def rest : Parse Str := fun c => .ok (c.rest, c)

/-- `Var::skipWhiteSpace`. -/
def skipWhiteSpace : Parse Unit := do
  let _ ← peek
  skip ((← rest).takeWhile isSpace).length

/-- `val.find_first_of(stops, pos)` as an offset from `pos`. -/
def findFirstOf (stops val : Str) : Option Nat := val.findIdx? stops.contains

/-- `Var::parseString`. -/
def parseString : Parse Str := do
  if (← peek) = 34 then
    skip 1
    let val ← rest
    match findFirstOf strStop val with
    | none => throw (.dataFormat "Unterminated string")
    | some stop =>
      skip (stop + 1)
      pure (val.take stop)
  else
    let val ← rest
    let stop := (findFirstOf otherStop val).getD val.length
    let safeCheck := findFirstOf strStop val
    if safeCheck.any (· < stop) then
      throw (.dataFormat "Misplaced string termination char found")
    else
      skip (stop + 1)
      pure (val.take stop)

/-- The comma after a member or an element, which may be missing, with the space around it. -/
def skipComma : Parse Unit := do
  skipWhiteSpace
  if (← peek) = 44 then
    skip 1
    skipWhiteSpace
  else
    pure ()

/-- `Var::parseObject` around its loop. -/
def parseObject (members : Parse (List (Str × Var))) : Parse Var := do
  skip 1
  skipWhiteSpace
  let aStruct ← members
  if (← peek) ≠ 125 then
    throw (.dataFormat "Unterminated object")
  else
    skip 1
    pure (.struct aStruct)

/-- `Var::parseArray` around its loop. -/
def parseArray (items : Parse (List Var)) : Parse Var := do
  skip 1
  skipWhiteSpace
  let result ← items
  if (← peek) ≠ 93 then
    throw (.dataFormat "Unterminated array")
  else
    skip 1
    pure (.vector result)

/-- What the loop of `Var::parseObject` takes before a value. -/
def parseKey : Parse Str := do
  let key ← parseString
  skipWhiteSpace
  if (← peek) ≠ 58 then
    throw (.dataFormat "Incorrect object, must contain: key : value pairs")
  else
    skip 1
    pure key

mutual

/-- `Var::parse` from a position on. -/
def parseFrom : Nat → Parse Var
  | 0 => throw .outOfFuel
  | fuel + 1 => do
    skipWhiteSpace
    if ← more then
      let c ← peek
      if c = 123 then parseObject (parseMembers fuel [])
      else if c = 91 then parseArray (parseItems fuel)
      else Var.string <$> parseString
    else
      pure (.string [])

/-- The loop of `Var::parseObject`. -/
def parseMembers : Nat → List (Str × Var) → Parse (List (Str × Var))
  | 0, _ => throw .outOfFuel
  | fuel + 1, aStruct => do
    if (← peek) ≠ 125 ∧ (← more) then
      let key ← parseKey
      let value ← parseFrom fuel
      skipComma
      parseMembers fuel (SortedMaps.insert aStruct key value)
    else
      pure aStruct

/-- The loop of `Var::parseArray`. -/
def parseItems : Nat → Parse (List Var)
  | 0 => throw .outOfFuel
  | fuel + 1 => do
    if (← peek) ≠ 93 ∧ (← more) then
      let item ← parseFrom fuel
      skipComma
      let result ← parseItems fuel
      pure (item :: result)
    else
      pure []

end

/-- `Var::parse`.  A round of a loop and a call take one of the fuel, and with every two of them the
position moves on. -/
def parse (val : Str) : Except ParseError Var :=
  (parseFrom (2 * val.length + 1)).run' (.start val)

/-- What holds of all bytes can be checked one by one. -/
theorem forall_bytes {P : UInt8 → Prop} (h : ∀ n < 256, P (.ofNat n)) (c : UInt8) : P c := by
  have hc := h c.toNat c.toNat_lt
  rwa [UInt8.ofNat_toNat] at hc

/-- Nothing but white space. -/
def Spaces (w : Str) : Prop := ∀ a ∈ w, isSpace a = true

instance (w : Str) : Decidable (Spaces w) := List.decidableBAll _ w

variable {c : Cursor UInt8} {x : UInt8} {s : Str}

theorem it_lt_of_rest (h : c.rest = x :: s) : c.it < c.data.length := by
  have hlength := c.length_rest
  rw [h, List.length_cons] at hlength
  omega

theorem peek_of_le (h : c.it ≤ c.data.length) : peek c = .ok (c.rest.headD 0, c) := if_pos h

theorem peek_of_lt (h : c.data.length < c.it) :
    peek c = .error (.undefined (.outOfRange c.it)) := if_neg (Nat.not_le.mpr h)

theorem peek_cons (h : c.rest = x :: s) : peek c = .ok (x, c) := by
  rw [peek_of_le (Nat.le_of_lt (it_lt_of_rest h)), h]
  rfl

theorem more_cons (h : c.rest = x :: s) : more c = .ok (true, c) := by
  rw [more, decide_eq_true (it_lt_of_rest h)]

theorem takeWhile_spaces {w : Str} (hw : Spaces w) (hx : isSpace x = false) (s : Str) :
    (w ++ x :: s).takeWhile isSpace = w := by
  rw [List.takeWhile_append_of_pos hw, List.takeWhile_cons_of_neg (by simp [hx]),
    List.append_nil]

theorem skipWhiteSpace_of_le (h : c.it ≤ c.data.length) :
    skipWhiteSpace c = .ok ((), c.advance (c.rest.takeWhile isSpace).length) := by
  rw [skipWhiteSpace, bind_of_ok (peek_of_le h)]
  rfl

theorem skipWhiteSpace_eq {w : Str} (h : c.rest = w ++ x :: s) (hw : Spaces w)
    (hx : isSpace x = false) : skipWhiteSpace c = .ok ((), c.advance w.length) := by
  have hlength := c.length_rest
  rw [h, List.length_append, List.length_cons] at hlength
  rw [skipWhiteSpace_of_le (by omega), h, takeWhile_spaces hw hx]

theorem rest_advance_append {w t : Str} (h : c.rest = w ++ t) : (c.advance w.length).rest = t := by
  rw [Cursor.rest_advance, h, List.drop_left]

/-- What may stand between an element or a member and the next one. -/
def Separates (t : Str) : Prop :=
  Spaces t ∨ ∃ w w', t = w ++ 44 :: w' ∧ Spaces w ∧ Spaces w'

theorem skipComma_eq {t : Str} (h : c.rest = t ++ x :: s) (ht : Separates t)
    (hx : isSpace x = false) (hcomma : x ≠ 44) :
    skipComma c = .ok ((), c.advance t.length) := by
  rcases ht with hspaces | ⟨w, w', rfl, hw, hw'⟩
  · have hrest := rest_advance_append h
    rw [skipComma, bind_of_ok (skipWhiteSpace_eq h hspaces hx), bind_of_ok (peek_cons hrest),
      if_neg hcomma]
    rfl
  · rw [List.append_assoc, List.cons_append] at h
    have hrest := rest_advance_append h
    have hafter : ((c.advance w.length).advance 1).rest = w' ++ x :: s := by
      rw [Cursor.rest_advance, hrest]
      rfl
    have hskip : skip 1 (c.advance w.length) = .ok ((), (c.advance w.length).advance 1) := rfl
    rw [skipComma, bind_of_ok (skipWhiteSpace_eq h hw (by decide)), bind_of_ok (peek_cons hrest),
      if_pos rfl, bind_of_ok hskip, skipWhiteSpace_eq hafter hw' hx]
    simp [Nat.add_assoc, Nat.add_comm 1]

theorem strStop_eq : strStop = [34] := rfl

theorem otherStop_eq : otherStop = [32, 44, 93, 125] := rfl

theorem findFirstOf_none {stops : Str} (h : ∀ a ∈ s, a ∉ stops) :
    findFirstOf stops s = none := by
  rw [findFirstOf, List.findIdx?_eq_none_iff]
  intro a ha
  simpa using h a ha

theorem findFirstOf_append {stops : Str} (h : ∀ a ∈ s, a ∉ stops) (hx : x ∈ stops) (t : Str) :
    findFirstOf stops (s ++ x :: t) = some s.length := by
  have hnone := findFirstOf_none h
  rw [findFirstOf] at hnone ⊢
  rw [List.findIdx?_append, hnone, List.findIdx?_cons]
  simp [hx]

end Starfall.Vars
