import Mathlib.Data.Nat.Digits.Lemmas
import Starfall.Common.Spelling

/-! The texts of values: `appendJSONString` and the conversions of `VarHolder.h` and `Struct.h`,
which leave strings as they are, and `Stringifier.cpp` with `Object.cpp`, which escape them. -/

namespace Starfall.Vars

open ProofKit

/-- `Poco::NumberFormatter`, which writes numbers with decimal digits, and no zero before them. -/
structure NumberFormatter where
  format : UInt32 → Str
  digits : ∀ n, format n ≠ [] ∧ ∀ a ∈ format n, 48 ≤ a ∧ a ≤ 57
  leading : ∀ n, (format n).head? = some 48 → format n = [48]
  injective : Function.Injective format

theorem digit_char : ∀ d < 10, (48 ≤ 48 + UInt8.ofNat d ∧ 48 + UInt8.ofNat d ≤ 57) ∧
    (48 + UInt8.ofNat d = 48 → d = 0) ∧ (48 + UInt8.ofNat d).toNat - 48 = d := by decide

/-- The number that decimal digits stand for. -/
def valueOf (s : Str) : Nat := Nat.ofDigits 10 (s.reverse.map fun a => a.toNat - 48)

theorem valueOf_digits (n : Nat) :
    valueOf ((Nat.digits 10 n).reverse.map fun d => 48 + UInt8.ofNat d) = n := by
  have hdigits : (Nat.digits 10 n).map (fun d => (48 + UInt8.ofNat d).toNat - 48) =
      Nat.digits 10 n := by
    conv_rhs => rw [← List.map_id' (Nat.digits 10 n)]
    exact List.map_congr_left fun d hd => (digit_char d (Nat.digits_lt_base (by decide) hd)).2.2
  rw [valueOf, ← List.map_reverse, List.reverse_reverse, List.map_map]
  exact (congrArg (Nat.ofDigits 10) hdigits).trans (Nat.ofDigits_digits 10 n)

/-- A formatter that writes the digits of `Nat.digits`. -/
def decimal : NumberFormatter where
  format n :=
    if n = 0 then [48] else (Nat.digits 10 n.toNat).reverse.map fun d => 48 + UInt8.ofNat d
  digits n := by
    split
    · exact ⟨List.cons_ne_nil _ _, List.forall_mem_singleton.mpr (by decide)⟩
    · rename_i hn
      have hne : n.toNat ≠ 0 := fun h => hn (UInt32.toNat_inj.mp h)
      refine ⟨fun hnil => ?_, fun a ha => ?_⟩
      · rw [List.map_eq_nil_iff, List.reverse_eq_nil_iff] at hnil
        exact hne (Nat.digits_eq_nil_iff_eq_zero.mp hnil)
      · obtain ⟨d, hd, rfl⟩ := List.mem_map.mp ha
        exact (digit_char d (Nat.digits_lt_base (by decide) (List.mem_reverse.mp hd))).1
  leading n := by
    split
    · exact fun _ => rfl
    · rename_i hn
      have hne : n.toNat ≠ 0 := fun h => hn (UInt32.toNat_inj.mp h)
      intro hhead
      rw [List.head?_map, List.head?_reverse] at hhead
      obtain ⟨d, hd, hchar⟩ := Option.map_eq_some_iff.mp hhead
      obtain ⟨hnil, rfl⟩ := List.mem_getLast?_eq_getLast hd
      have hlt := Nat.digits_lt_base (by decide : 1 < 10) (List.getLast_mem hnil)
      exact absurd ((digit_char _ hlt).2.1 hchar) (Nat.getLast_digit_ne_zero 10 hne)
  injective := by
    have hvalue (n : UInt32) : valueOf (if n = 0 then [48] else
        (Nat.digits 10 n.toNat).reverse.map fun d => 48 + UInt8.ofNat d) = n.toNat := by
      split
      · rename_i hzero
        rw [hzero]
        rfl
      · exact valueOf_digits n.toNat
    intro n m h
    have hnumbers := (hvalue n).symm.trans ((congrArg valueOf h).trans (hvalue m))
    exact UInt32.toNat_inj.mp hnumbers

def hexDigit (n : UInt8) : UInt8 := if n < 10 then 48 + n else 55 + n

/-- What `Stringifier::stringify` writes for a character of a string. -/
def escapeChar (c : UInt8) : Str :=
  if c = 34 then [92, 34]
  else if c = 92 then [92, 92]
  else if c = 8 then [92, 98]
  else if c = 12 then [92, 102]
  else if c = 10 then [92, 110]
  else if c = 13 then [92, 114]
  else if c = 9 then [92, 116]
  else if 0 < c ∧ c ≤ 31 then [92, 117, 48, 48, hexDigit (c / 16), hexDigit (c % 16)]
  else [c]

/-- A string that is written without quotes, from its third character on. -/
def Framed (value : Str) : Prop :=
  value.take 2 = Str.ofString "<%" ∧ value.drop (value.length - 2) = Str.ofString "%>"

instance (value : Str) : Decidable (Framed value) := inferInstanceAs (Decidable (_ ∧ _))

/-- What `Stringifier::stringify` writes for a string. -/
def stringifyString (value : Str) : Str :=
  if Framed value then (value.drop 2).flatMap escapeChar
  else 34 :: (value.flatMap escapeChar ++ [34])

def quote (s : Str) : Str := 34 :: (s ++ [34])

def null : Str := Str.ofString "null"

def inVector (items : Str) : Str := Str.ofString "[ " ++ items ++ Str.ofString " ]"

def inStruct (members : Str) : Str := Str.ofString "\x7b " ++ members ++ Str.ofString " \x7d"

/-- `Object::stringify` around its loop. -/
def inObject (members : Str) (indent : Nat) : Str :=
  Str.ofString "\x7b" ++ (if indent > 0 then Str.ofString "\n" else []) ++ members ++
    List.replicate (indent - 2) 32 ++ Str.ofString "\x7d"

variable (numbers : NumberFormatter)

mutual

/-- `appendJSONString`. -/
def appendJSONString : Var → Str
  | .empty => null
  | .string s => quote s
  | .number n => numbers.format n
  | .vector items => inVector (appendItems items)
  | .struct members => inStruct (appendMembers members)
  | .object members => inObject (stringifyMembers members 2) 2

/-- The loop over the elements of a vector. -/
def appendItems : List Var → Str
  | [] => []
  | [v] => appendJSONString v
  | v :: vs => appendJSONString v ++ Str.ofString ", " ++ appendItems vs

/-- The loop over the members of a struct. -/
def appendMembers : List (Str × Var) → Str
  | [] => []
  | [(k, v)] => quote k ++ Str.ofString " : " ++ appendJSONString v
  | (k, v) :: ms =>
    quote k ++ Str.ofString " : " ++ appendJSONString v ++ Str.ofString ", " ++ appendMembers ms

/-- `Stringifier::stringify`.  The loops count an `unsigned` indent with an `int`, which they can
as long as it stays below `2 ^ 31`. -/
def stringify : Var → Nat → Str
  | .object members, indent =>
    let indent := if indent = 0 then 0 else indent + 2
    inObject (stringifyMembers members indent) indent
  | .empty, _ => null
  | .string s, _ => stringifyString s
  | .number n, _ => numbers.format n
  | .vector items, _ => inVector (appendItems items)
  | .struct members, _ => inStruct (appendMembers members)

/-- The loop of `Object::stringify`. -/
def stringifyMembers : List (Str × Var) → Nat → Str
  | [], _ => []
  | (k, v) :: ms, indent =>
    List.replicate indent 32 ++ quote k ++ Str.ofString (if indent > 0 then " : " else ":") ++
      stringify v indent ++ (if ms.isEmpty then [] else Str.ofString ",") ++
      (if indent > 0 then Str.ofString "\n" else []) ++ stringifyMembers ms indent

end

/-- `Object::stringify`. -/
def stringifyObject (members : List (Str × Var)) (indent : Nat) : Str :=
  inObject (stringifyMembers numbers members indent) indent

mutual

/-- How many values are in one another. -/
def Var.depth : Var → Nat
  | .vector items => depthItems items + 1
  | .struct members => depthMembers members + 1
  | .object members => depthMembers members + 1
  | _ => 0

def depthItems : List Var → Nat
  | [] => 0
  | v :: vs => max v.depth (depthItems vs)

def depthMembers : List (Str × Var) → Nat
  | [] => 0
  | (_, v) :: ms => max v.depth (depthMembers ms)

end

/-- `Var::toString`. -/
def Var.toString (any : Var) : Str := appendJSONString numbers any

/-- What the loops of `Database::Insert::TryConsole` leave of a text. -/
def strip (text : Str) : Str := text.filter fun b => b ≠ 10 ∧ b ≠ 9

mutual

/-- What the text of a value is read as when it is stored.  Where the text comes from
`Stringifier::stringify`, strings are escaped, and elsewhere they lose their line breaks and
tabulators, as names do. -/
def reread : Bool → Var → Var
  | _, .empty => .string null
  | true, .string s => .string (s.flatMap escapeChar)
  | false, .string s => .string (strip s)
  | _, .number n => .string (numbers.format n)
  | _, .vector items => .vector (rereadItems items)
  | _, .struct members => .struct (SortedMaps.insertAll [] (rereadMembers false members))
  | _, .object members => .struct (SortedMaps.insertAll [] (rereadMembers true members))

def rereadItems : List Var → List Var
  | [] => []
  | v :: vs => reread false v :: rereadItems vs

def rereadMembers : Bool → List (Str × Var) → List (Str × Var)
  | _, [] => []
  | escaped, (k, v) :: ms => (strip k, reread escaped v) :: rereadMembers escaped ms

end

theorem rereadItems_eq (items : List Var) :
    rereadItems numbers items = items.map (reread numbers false) := by
  induction items with
  | nil => rw [rereadItems, List.map_nil]
  | cons v items ih => rw [rereadItems, ih, List.map_cons]

theorem rereadMembers_eq (escaped : Bool) (members : List (Str × Var)) :
    rereadMembers numbers escaped members =
      members.map fun m => (strip m.1, reread numbers escaped m.2) := by
  induction members with
  | nil => rw [rereadMembers, List.map_nil]
  | cons m members ih => rw [rereadMembers, ih, List.map_cons]

theorem comma_eq : Str.ofString ", " = [44, 32] := rfl

theorem colon_eq : Str.ofString " : " = [32, 58, 32] := rfl

theorem quote_colon (k text : Str) : quote k ++ Str.ofString " : " ++ text = memberText k text := by
  simp [quote, colon_eq, memberText]

theorem appendItems_eq (items : List Var) :
    appendItems numbers items =
      List.intercalate [44, 32] (items.map (appendJSONString numbers)) := by
  induction items with
  | nil => rw [appendItems]; rfl
  | cons v items ih =>
    cases items with
    | nil => simp [appendItems, List.intercalate]
    | cons w items =>
      rw [appendItems, ih, comma_eq]
      · simp [List.intercalate]
      · simp

theorem appendMembers_eq (members : List (Str × Var)) :
    appendMembers numbers members = List.intercalate [44, 32]
      (members.map fun m => memberText m.1 (appendJSONString numbers m.2)) := by
  induction members with
  | nil => rw [appendMembers]; rfl
  | cons m members ih =>
    obtain ⟨k, v⟩ := m
    cases members with
    | nil =>
      rw [appendMembers, quote_colon]
      simp [List.intercalate]
    | cons m' members =>
      rw [appendMembers, ih, quote_colon, comma_eq]
      · simp [List.intercalate]
      · simp

@[simp] theorem strip_nil : strip [] = [] := rfl

@[simp] theorem strip_append (s t : Str) : strip (s ++ t) = strip s ++ strip t :=
  List.filter_append ..

@[simp] theorem strip_cons_of_ne {a : UInt8} (h : a ≠ 10 ∧ a ≠ 9) (s : Str) :
    strip (a :: s) = a :: strip s :=
  List.filter_cons_of_pos (by simpa using h)

theorem strip_eq_self {s : Str} (h : ∀ a ∈ s, a ≠ 10 ∧ a ≠ 9) : strip s = s :=
  List.filter_eq_self.mpr fun a ha => by simpa using h a ha

theorem mem_of_mem_strip {s : Str} {a : UInt8} (h : a ∈ strip s) : a ∈ s :=
  List.mem_of_mem_filter h

theorem strip_replicate (n : Nat) : strip (List.replicate n 32) = List.replicate n 32 := by
  apply strip_eq_self
  intro a ha
  rw [List.eq_of_mem_replicate ha]
  decide

theorem strip_memberText (k text : Str) :
    strip (memberText k text) = memberText (strip k) (strip text) := by
  simp [memberText, strip_cons_of_ne]

/-- The loop of an object over its members puts each on a line of its own. -/
theorem strip_stringifyMembers {n : Nat} (hn : 0 < n) (members : List (Str × Var))
    (hne : members ≠ []) :
    strip (stringifyMembers numbers members n) ++ List.replicate (n - 2) 32 =
      List.replicate n 32 ++ objectLines n
        (members.map fun m => memberText (strip m.1) (strip (stringify numbers m.2 n))) := by
  have hnewline : strip (Str.ofString "\n") = [] := by decide
  have hcomma : Str.ofString "," = [44] := rfl
  induction members with
  | nil => exact absurd rfl hne
  | cons m members ih =>
    obtain ⟨k, v⟩ := m
    have hmember : List.replicate n 32 ++ quote k ++ Str.ofString (if n > 0 then " : " else ":") ++
        stringify numbers v n = List.replicate n 32 ++ memberText k (stringify numbers v n) := by
      rw [if_pos hn, List.append_assoc, List.append_assoc, ← List.append_assoc (quote k),
        quote_colon]
    rw [stringifyMembers, hmember, if_pos hn]
    cases members with
    | nil =>
      simp [stringifyMembers, hnewline, strip_memberText, strip_replicate, objectLines]
    | cons m' members =>
      have hrest := ih (List.cons_ne_nil m' members)
      simp only [List.isEmpty_cons, Bool.false_eq_true, if_false, hcomma, strip_append, hnewline,
        strip_memberText, strip_replicate, List.append_assoc, hrest, List.map_cons, objectLines]
      simp [strip_cons_of_ne]

theorem strip_inObject {n : Nat} (hn : 0 < n) (members : List (Str × Var)) :
    strip (inObject (stringifyMembers numbers members n) n) =
      if members = [] then 123 :: (List.replicate (n - 2) 32 ++ [125])
      else 123 :: (List.replicate n 32 ++ (objectLines n
        (members.map fun m => memberText (strip m.1) (strip (stringify numbers m.2 n))) ++
          [125])) := by
  have hopen : strip (Str.ofString "\x7b" ++ Str.ofString "\n") = [123] := by decide
  have hclose : strip (Str.ofString "\x7d") = [125] := by decide
  rw [inObject, if_pos hn, strip_append, strip_append, strip_append, hopen, hclose,
    strip_replicate]
  split
  · rename_i hnil
    rw [hnil, stringifyMembers]
    simp
  · rename_i hne
    rw [List.append_assoc [123], strip_stringifyMembers numbers hn members hne]
    simp

theorem strip_intercalate (sep : Str) (hsep : strip sep = sep) (texts : List Str) :
    strip (sep.intercalate texts) = sep.intercalate (texts.map strip) := by
  induction texts with
  | nil => rfl
  | cons t texts ih =>
    cases texts with
    | nil => simp [List.intercalate]
    | cons t' texts =>
      simp only [List.intercalate, List.intersperse_cons_cons, List.flatten_cons, strip_append,
        hsep, List.map_cons] at ih ⊢
      rw [ih]

end Starfall.Vars
