import Mathlib.Data.List.Basic

/-! The values that the page parses out of console messages, and what JavaScript makes of them. -/

namespace Starfall.Components

abbrev Str := List Char

/-- The numbers of JavaScript, with the texts of `toString(10)` and `toString(16)`. -/
structure Numbers (N : Type) where
  ofInt : Int → N
  ofString : Str → N
  div : N → N → N
  isPositive : N → Bool
  equal : N → N → Bool
  decimal : N → Str
  hexadecimal : N → Str
  plain : ∀ n, ∀ c ∈ decimal n ++ hexadecimal n, c.isAlphanum ∨ c ∈ ['.', '+', '-']

/-- What `JSON.parse` returns.  The properties of an object stand in the order in which `for in`
visits them. -/
inductive Value (N : Type)
  | null
  | boolean (b : Bool)
  | number (n : N)
  | string (s : Str)
  | array (items : List (Value N))
  | object (properties : List (Str × Value N))

def decimal (n : Nat) : Str := Nat.toDigits 10 n

/-- The number of UTF-16 code units. -/
def length (s : Str) : Nat := s.foldl (fun n c => if c.toNat < 0x10000 then n + 1 else n + 2) 0

def isSpace (c : Char) : Bool :=
  c ∈ ['\t', '\n', '\x0b', '\x0c', '\r', ' ', '\u00a0', '\u1680', '\u2028', '\u2029', '\u202f',
    '\u205f', '\u3000', '\ufeff'] || (0x2000 ≤ c.toNat && c.toNat ≤ 0x200a)

def digit (radix : Nat) (c : Char) : Option Nat :=
  let value :=
    if c.isDigit then c.toNat - '0'.toNat
    else if c.isAlpha then c.toLower.toNat - 'a'.toNat + 10
    else radix
  if value < radix then some value else none

/-- `parseInt`, with `none` for `NaN`. -/
def parseInt (s : Str) : Option Int :=
  let s := s.dropWhile isSpace
  let sign : Int := if s.head? = some '-' then -1 else 1
  let s := if s.head? = some '-' ∨ s.head? = some '+' then s.tail else s
  let isHex := s.take 2 = ['0', 'x'] ∨ s.take 2 = ['0', 'X']
  let radix := if isHex then 16 else 10
  let digits := ((if isHex then s.drop 2 else s).map (digit radix)).takeWhile Option.isSome
  if digits = [] then none
  else some (sign * digits.reduceOption.foldl (fun n d => n * radix + d) 0)

variable {N : Type} (num : Numbers N)

namespace Value

/-- `typeof value == "object"` -/
def isObject : Value N → Bool
  | .null | .array _ | .object _ => true
  | _ => false

/-- What `for in` visits in an array or an object. -/
def properties : Value N → List (Str × Value N)
  | .array items => items.zipIdx.map fun (item, i) => (decimal i, item)
  | .object properties => properties
  | _ => []

mutual

/-- The conversion to a string, which throws for an object with a `toString` of its own, as no value
is a function. -/
def toText : Value N → Option Str
  | .null => some "null".toList
  | .boolean b => some (if b then "true".toList else "false".toList)
  | .number n => some (num.decimal n)
  | .string s => some s
  | .array items => join items
  | .object properties =>
    if (properties.map Prod.fst).contains "toString".toList then none
    else some "[object Object]".toList

/-- The `join` of an array, where `null` leaves nothing between its commas. -/
def join : List (Value N) → Option Str
  | [] => some []
  | [.null] => some []
  | [item] => toText item
  | .null :: items => do some (',' :: (← join items))
  | item :: items => do some ((← toText item) ++ ',' :: (← join items))

end

end Value

/-- `value.name`, which throws where `value` is undefined or `null`. -/
def get (value : Option (Value N)) (name : Str) : Option (Option (Value N)) :=
  match value with
  | none | some .null => none
  | some (.object properties) => some (properties.lookup name)
  | some _ => some none

/-- What a value is compared as when it is no object, or neither operand is `null`. -/
inductive Primitive (N : Type)
  | number (n : N)
  | string (s : Str)

def primitive : Value N → Option (Primitive N)
  | .boolean b => some (.number (num.ofInt (if b then 1 else 0)))
  | .number n => some (.number n)
  | value => .string <$> value.toText num

def Primitive.equal : Primitive N → Primitive N → Bool
  | .number n, .number m => num.equal n m
  | .number n, .string s | .string s, .number n => num.equal n (num.ofString s)
  | .string s, .string t => s = t

/-- `a == b`, for values of which neither is part of the other. -/
def looselyEqual (a b : Option (Value N)) : Option Bool :=
  match a, b with
  | none, none | none, some .null | some .null, none | some .null, some .null => some true
  | none, some _ | some .null, some _ | some _, none | some _, some .null => some false
  | some a, some b =>
    if a.isObject ∧ b.isObject then some false
    else do some ((← primitive num a).equal num (← primitive num b))

/-- `obj.length` where it equals `+obj.length`, which throws for a value without a string. -/
def loopLength : Option (Value N) → Option (Option N)
  | none => some none
  | some (.number n) => some (some n)
  | some value => do
    let _ ← value.toText num
    some none

/-- What `_.some` calls its function with, which is done with the first. -/
def first : Value N → Option (List (Option (Value N)))
  | .string s => some (s.head?.map fun c => some (.string [c])).toList
  | .array items => some (items.head?.map some).toList
  | .object properties => do
    match ← loopLength num (properties.lookup "length".toList) with
    | some n => some (if num.isPositive n then [properties.lookup "0".toList] else [])
    | none => some (properties.head?.map fun property => some property.2).toList
  | _ => some []

/-- What `_.eachObject` calls its function with. -/
def eachObject (obj : Option (Value N)) : Option (List (Option (Value N))) :=
  match obj with
  | none => some []
  | some obj => obj.properties.flatMapM fun (prop, value) =>
    if (parseInt prop).isSome then first num value
    else some (if value.isObject then [some value] else [])

theorem isAlphanum_toDigits {n : Nat} {c : Char} (h : c ∈ Nat.toDigits 16 n) : c.isAlphanum := by
  have hdigit : ∀ d < 16, (Nat.digitChar d).isAlphanum := by
    decide
  have general : ∀ fuel n digits, (∀ c ∈ digits, c.isAlphanum) →
      ∀ c ∈ Nat.toDigitsCore 16 fuel n digits, c.isAlphanum := by
    intro fuel
    induction fuel with
    | zero => exact fun n digits hdigits => hdigits
    | succ fuel ih =>
      intro n digits hdigits
      have hcons : ∀ c ∈ Nat.digitChar (n % 16) :: digits, c.isAlphanum := by
        rw [List.forall_mem_cons]
        exact ⟨hdigit _ (Nat.mod_lt n (by decide)), hdigits⟩
      rw [Nat.toDigitsCore]
      split
      · exact hcons
      · exact ih _ _ hcons
  exact general _ _ _ (fun c hc => absurd hc List.not_mem_nil) c h

theorem isAlphanum_decimal {n : Nat} {c : Char} (h : c ∈ decimal n) : c.isAlphanum := by
  rw [Char.isAlphanum, Nat.isDigit_of_mem_toDigits (by decide) (by decide) h, Bool.or_true]

/-- Numbers that are integers. -/
def integers : Numbers Int where
  ofInt := id
  ofString s := (parseInt s).getD 0
  div := Int.tdiv
  isPositive n := decide (0 < n)
  equal n m := decide (n = m)
  decimal n := if n < 0 then '-' :: decimal n.natAbs else decimal n.natAbs
  hexadecimal n :=
    if n < 0 then '-' :: Nat.toDigits 16 n.natAbs else Nat.toDigits 16 n.natAbs
  plain n c h := by
    rcases List.mem_append.mp h with h | h
    · split at h
      · rcases List.mem_cons.mp h with rfl | h
        · exact .inr (by decide)
        · exact .inl (isAlphanum_decimal h)
      · exact .inl (isAlphanum_decimal h)
    · split at h
      · rcases List.mem_cons.mp h with rfl | h
        · exact .inr (by decide)
        · exact .inl (isAlphanum_toDigits h)
      · exact .inl (isAlphanum_toDigits h)

end Starfall.Components
