import Starfall.Web.Properties

/-! `System.Xml2Json` of `main.js`, which makes an object of an element, and `_.eachObject`, which
visits it. -/

namespace Starfall.Xml2Json

open Components (Named Properties decimal parseInt)
open ProofKit.Folds

abbrev Str := Components.Str

/-- The characters that a name begins with. -/
def nameStart (c : Char) : Bool :=
  c = ':' || c = '_' || c.isAlpha || [(0xc0, 0xd6), (0xd8, 0xf6), (0xf8, 0x2ff), (0x370, 0x37d),
    (0x37f, 0x1fff), (0x200c, 0x200d), (0x2070, 0x218f), (0x2c00, 0x2fef), (0x3001, 0xd7ff),
    (0xf900, 0xfdcf), (0xfdf0, 0xfffd)].any fun (low, high) => low ≤ c.toNat ∧ c.toNat ≤ high

/-- The name of an element or of an attribute. -/
structure Name where
  text : Str
  start : text.head?.any nameStart = true

/-- What `xmldoc.js` makes of an element. -/
structure Element where
  name : Name
  attr : List (Name × Str)
  children : List Element

inductive Value
  | string (s : Str)
  | object (own inherited : List (Str × Value))

namespace Value

def ofProperties (obj : Properties Value) : Value := .object obj.own obj.inherited

def isObject : Value → Bool
  | .string _ => false
  | .object _ _ => true

/-- What an object visits that inherits from a value, if it can. -/
def prototype : Value → Option (List (Str × Value))
  | .string _ => none
  | .object own inherited => some (Properties.mk own inherited).forIn

/-- Whether `+value` throws, as a `toString` that is no function hides the inherited one. -/
def unprintable : Value → Bool
  | .string _ => false
  | .object own inherited => ((own ++ inherited).map Prod.fst).contains "toString".toList

/-- Whether `obj.length === +obj.length` throws. -/
def unreadable : Value → Bool
  | .string _ => false
  | .object own inherited => ((own ++ inherited).lookup "length".toList).any unprintable

/-- What `_.some` calls its function with first, where it does not throw. -/
def first : Value → Option Value
  | .string s => s.head?.map fun c => .string [c]
  | .object own _ => own.head?.map Prod.snd

/-- What `_.eachObject` visits for one property. -/
def visited (prop : Str) (value : Value) : Option (List Value) :=
  if (parseInt prop).isSome then
    if value.unreadable then none else some value.first.toList
  else some (if value.isObject then [value] else [])

end Value

/-- What `_.eachObject` calls its function with, unless it throws. -/
def eachObject (obj : Properties Value) : Option (List Value) :=
  obj.forIn.flatMapM fun property => property.2.visited property.1

/-- Whether a property hides the function `hasOwnProperty`. -/
def shadowed (obj : Properties Value) : Bool :=
  (obj.forIn.map Prod.fst).contains "hasOwnProperty".toList

/-- `obj.hasOwnProperty(prop)`, which throws where it is no function. -/
def hasOwnProperty (obj : Properties Value) (prop : Str) : Option Bool :=
  if shadowed obj then none else some (obj.has prop)

/-- `delete obj[prop]` -/
def delete (obj : Properties Value) (prop : Str) : Properties Value :=
  { obj with own := obj.own.filter fun property => property.1 ≠ prop }

/-- `{}`, with one property that is assigned to it. -/
def wrap (prop : Str) (value : Value) : Value :=
  .ofProperties ((Properties.mk [] []).set Value.prototype prop value)

/-- The function that `eachChild` calls, once the object of the child is made. -/
def store (length i : Nat) (name : Str) (value : Value) (obj : Properties Value) :
    Option (Properties Value) := do
  if !(← hasOwnProperty obj name) then
    some (obj.set Value.prototype name value)
  else
    let obj := obj.set Value.prototype (decimal i) (wrap name value)
    if i + 1 = length then
      if ← hasOwnProperty obj name then
        let first := (obj.own.lookup name).getD (.string [])
        some (delete (obj.set Value.prototype (decimal 0) (wrap name first)) name)
      else some obj
    else some obj

/-- The attributes of an element, which its object begins with. -/
def record (attr : List (Name × Str)) : Properties Value where
  own := attr.map fun (name, text) => (name.text, .string text)
  inherited := []

mutual

def recurse (obj : Properties Value) : Element → Option (Properties Value)
  | ⟨_, _, children⟩ => eachChild children.length 0 obj children

def eachChild (length i : Nat) (obj : Properties Value) :
    List Element → Option (Properties Value)
  | [] => some obj
  | child :: rest => do
    let value ← recurse (record child.attr) child
    let obj ← store length i child.name.text (.ofProperties value) obj
    eachChild length (i + 1) obj rest

end

/-- The object of an element. -/
def Element.object (e : Element) : Option (Properties Value) := recurse (record e.attr) e

/-- `System.Xml2Json`, which leaves out the attributes of the document. -/
def xml2Json (document : Element) : Option (Properties Value) := recurse ⟨[], []⟩ document

theorem nameStart_not_digit {c : Char} (h : nameStart c) : c.isDigit = false := by
  have hdigits : ∀ n < 10, nameStart (Char.ofNat (48 + n)) = false := by
    decide
  rw [Bool.eq_false_iff]
  intro hdigit
  obtain ⟨hle, hge⟩ : 48 ≤ c.toNat ∧ c.toNat ≤ 57 := Char.isDigit_iff_toNat.mp hdigit
  have hc : Char.ofNat (48 + (c.toNat - 48)) = c := by
    rw [Nat.add_sub_cancel' hle, Char.ofNat_toNat]
  rw [← hc, hdigits _ (by omega)] at h
  cases h

/-- No name is a number. -/
theorem Name.named (name : Name) : Named name.text := by
  intro n hdecimal
  have hstart := name.start
  rw [hdecimal] at hstart
  cases hdigits : decimal n with
  | nil => exact Nat.toDigits_ne_nil hdigits
  | cons c rest =>
    rw [hdigits] at hstart
    have hmem : c ∈ Nat.toDigits 10 n := by
      rw [← decimal, hdigits]
      exact List.mem_cons_self
    have hdigit : c.isDigit := Nat.isDigit_of_mem_toDigits (by decide) (by decide) hmem
    rw [nameStart_not_digit hstart] at hdigit
    cases hdigit

/-- A child with the object that is made of it. -/
def Element.item (e : Element) : Option (Str × Value) :=
  e.object.map fun obj => (e.name.text, .ofProperties obj)

/-- The calls for children whose objects are known. -/
def storeAll (length i : Nat) (obj : Properties Value) :
    List (Str × Value) → Option (Properties Value)
  | [] => some obj
  | item :: items => do
    let obj ← store length i item.1 item.2 obj
    storeAll length (i + 1) obj items

theorem eachChild_eq {children : List Element} {items : List (Str × Value)}
    (h : children.mapM Element.item = some items) (length i : Nat) (obj : Properties Value) :
    eachChild length i obj children = storeAll length i obj items := by
  rw [mapM_eq_some] at h
  induction h generalizing i obj with
  | nil => rfl
  | cons hitem _ ih =>
    obtain ⟨value, hvalue, rfl⟩ := Option.map_eq_some_iff.mp hitem
    rw [Element.object] at hvalue
    rw [eachChild, hvalue, storeAll]
    simp only [ih]
    rfl

/-- A child under its tag, or under its number when there is one of the tag. -/
def place (i : Nat) (name : Str) (value : Value) (obj : Properties Value) : Properties Value :=
  if obj.has name then obj.set Value.prototype (decimal i) (wrap name value)
  else obj.set Value.prototype name value

/-- The first child of a tag under the number 0. -/
def gather (name : Str) (obj : Properties Value) : Properties Value :=
  let first := (obj.own.lookup name).getD (.string [])
  delete (obj.set Value.prototype (decimal 0) (wrap name first)) name

theorem hasOwnProperty_some {obj : Properties Value} (h : shadowed obj = false) (prop : Str) :
    hasOwnProperty obj prop = some (obj.has prop) := by
  rw [hasOwnProperty, h]
  rfl

theorem shadowed_iff {obj : Properties Value} :
    shadowed obj = true ↔ "hasOwnProperty".toList ∈ obj.own.map Prod.fst ∨
      "hasOwnProperty".toList ∈ obj.inherited.map Prod.fst := by
  rw [shadowed, List.contains_iff_mem, Properties.mem_forIn]

/-- A number hides nothing, and what was there is there still. -/
theorem shadowed_index (i : Nat) (value : Value) (obj : Properties Value) :
    shadowed (obj.set Value.prototype (decimal i) value) = shadowed obj := by
  have hne : "hasOwnProperty".toList ≠ decimal i := Components.Named.of_parseInt (by decide) i
  rw [Bool.eq_iff_iff, shadowed_iff, shadowed_iff, Properties.set_index, Components.mem_put,
    or_iff_right hne]

theorem has_index (i : Nat) (value : Value) {obj : Properties Value} {name : Str}
    (h : obj.has name = true) :
    (obj.set Value.prototype (decimal i) value).has name = true := by
  rw [Properties.has_iff] at h ⊢
  rw [Properties.set_index, Components.mem_put]
  exact .inr h

theorem store_eq (length i : Nat) (name : Str) (value : Value) (obj : Properties Value) :
    store length i name value obj =
      if shadowed obj then none
      else if obj.has name ∧ i + 1 = length then some (gather name (place i name value obj))
      else some (place i name value obj) := by
  cases hshadowed : shadowed obj with
  | true =>
    rw [store, hasOwnProperty, hshadowed]
    rfl
  | false =>
    rw [store, hasOwnProperty_some hshadowed]
    cases hhas : obj.has name with
    | false =>
      rw [place, hhas]
      rfl
    | true =>
      have hshadowed' := (shadowed_index i (wrap name value) obj).trans hshadowed
      have hhas' := has_index i (wrap name value) hhas
      rw [place, hhas]
      by_cases hlast : i + 1 = length
      · simp only [Option.bind_eq_bind, Option.bind_some, Bool.not_true, Bool.false_eq_true,
          if_false, hasOwnProperty_some hshadowed', hhas', if_true, and_self, hlast,
          gather]
      · simp only [Option.bind_eq_bind, Option.bind_some, Bool.not_true, Bool.false_eq_true,
          if_false, hlast, and_false, if_true]

end Starfall.Xml2Json
