import Mathlib.Data.List.TakeWhile
import Starfall.Common.Stored
import Starfall.ProofKit.JsonTexts

/-! The texts of values as JSON.  A string that `Stringifier::stringify` writes is escaped, so that
it stands for itself, and elsewhere a string has to be a spelling already. -/

namespace Starfall.Vars

open ProofKit ProofKit.Json

/-- A character other than zero is spelled so that it stands for itself. -/
theorem escapeChar_spells {c : UInt8} (h : c ≠ 0) :
    IsSpelling (escapeChar c) ∧
      ∀ t, decode (escapeChar c ++ t) = (decode t).map fun t => c :: t := by
  have hspelling : ∀ c : UInt8, c ≠ 0 → IsSpelling (escapeChar c) :=
    forall_bytes (by decide +kernel)
  refine ⟨hspelling c h, fun t => ?_⟩
  have hdigits : ∀ c : UInt8, c ≤ 31 →
      16 * hexValue (hexDigit (c / 16)) + hexValue (hexDigit (c % 16)) = c :=
    forall_bytes (by decide +kernel)
  unfold escapeChar
  split
  · rename_i hquote
    rw [hquote]
    rfl
  split
  · rename_i hslash
    rw [hslash]
    rfl
  split
  · rename_i hback
    rw [hback]
    rfl
  split
  · rename_i hfeed
    rw [hfeed]
    rfl
  split
  · rename_i hline
    rw [hline]
    rfl
  split
  · rename_i hreturn
    rw [hreturn]
    rfl
  split
  · rename_i htab
    rw [htab]
    rfl
  split
  · rename_i hcontrol
    simp only [List.cons_append, List.nil_append, decode, hdigits c hcontrol.2]
  · rename_i hslash _ _ _ _ _ _
    exact decode_plain hslash t

theorem isSpelling_escape {s : Str} (h : 0 ∉ s) : IsSpelling (s.flatMap escapeChar) :=
  isSpelling_flatMap fun _ hc => (escapeChar_spells fun hzero => h (hzero ▸ hc)).1

/-- What `Stringifier::stringify` writes between the quotes stands for the string. -/
theorem decode_escape {s : Str} (h : 0 ∉ s) : decode (s.flatMap escapeChar) = some s :=
  decode_flatMap fun _ hc => (escapeChar_spells fun hzero => h (hzero ▸ hc)).2

variable (numbers : NumberFormatter)

mutual

/-- What the text of a value spells, `escaped` where `Stringifier::stringify` writes it. -/
def jsonView : Bool → Var → Json.Value
  | _, .empty => .null
  | true, .string s => .string (s.flatMap escapeChar)
  | false, .string s => .string s
  | _, .number n => .number (numbers.format n)
  | _, .vector items => .array (jsonItems items)
  | _, .struct members => .object (jsonMembers false members)
  | _, .object members => .object (jsonMembers true members)

def jsonItems : List Var → List Json.Value
  | [] => []
  | v :: vs => jsonView false v :: jsonItems vs

def jsonMembers : Bool → List (Str × Var) → List (Str × Json.Value)
  | _, [] => []
  | escaped, (k, v) :: ms => (k, jsonView escaped v) :: jsonMembers escaped ms

end

theorem jsonItems_eq (items : List Var) :
    jsonItems numbers items = items.map (jsonView numbers false) := by
  induction items with
  | nil => rw [jsonItems, List.map_nil]
  | cons v items ih => rw [jsonItems, ih, List.map_cons]

theorem jsonMembers_eq (escaped : Bool) (members : List (Str × Var)) :
    jsonMembers numbers escaped members =
      members.map fun m => (m.1, jsonView numbers escaped m.2) := by
  induction members with
  | nil => rw [jsonMembers, List.map_nil]
  | cons m members ih => rw [jsonMembers, ih, List.map_cons]

/-- A value whose text is JSON, `escaped` where `Stringifier::stringify` writes it. -/
inductive IsJson : Bool → Var → Prop
  | empty {escaped : Bool} : IsJson escaped .empty
  | number {escaped : Bool} {n : UInt32} : IsJson escaped (.number n)
  | escaped {s : Str} (hzero : 0 ∉ s) (hframed : ¬Framed s) : IsJson true (.string s)
  | raw {s : Str} (h : IsSpelling s) : IsJson false (.string s)
  | vector {escaped : Bool} {items : List Var} (h : ∀ v ∈ items, IsJson false v) :
      IsJson escaped (.vector items)
  | struct {escaped : Bool} {members : List (Str × Var)} (hkeys : ∀ m ∈ members, IsSpelling m.1)
      (h : ∀ m ∈ members, IsJson false m.2) : IsJson escaped (.struct members)
  | object {escaped : Bool} {members : List (Str × Var)} (hkeys : ∀ m ∈ members, IsSpelling m.1)
      (h : ∀ m ∈ members, IsJson true m.2) : IsJson escaped (.object members)

theorem isNumber_format (n : UInt32) :
    (∀ c ∈ numbers.format n, isNumeric c = true) ∧ isNumber (numbers.format n) = true := by
  obtain ⟨hne, hrange⟩ := numbers.digits n
  have hdigit : ∀ a ∈ numbers.format n, isDigit a = true := by
    intro a ha
    simpa [isDigit] using hrange a ha
  refine ⟨fun c hc => by simp [isNumeric, hdigit c hc], ?_⟩
  have hsign : ¬(numbers.format n).head? = some 45 := by
    intro hminus
    have hrange := hrange 45 (List.mem_of_head? hminus)
    exact absurd hrange (by decide)
  have hleading : numbers.format n = [48] ∨ ¬(numbers.format n).head? = some 48 :=
    (em _).imp_left (numbers.leading n)
  have htake : (numbers.format n).takeWhile isDigit = numbers.format n :=
    List.takeWhile_eq_self_iff.mpr hdigit
  have hdrop : (numbers.format n).dropWhile isDigit = [] := List.dropWhile_eq_nil_iff.mpr hdigit
  rw [isNumber, if_neg hsign, htake, hdrop]
  simpa [hne, isFraction, isExponent] using hleading

theorem fills_null : Fills .null null := by
  intro fuel hfuel r _
  obtain ⟨fuel, rfl⟩ : ∃ n, fuel = n + 1 := ⟨fuel - 1, by omega⟩
  exact ⟨r, rfl, rfl⟩

theorem fills_format (n : UInt32) : Fills (.number (numbers.format n)) (numbers.format n) :=
  fills_number (isNumber_format numbers n).1 (isNumber_format numbers n).2

theorem fills_raw {s : Str} (h : IsSpelling s) : Fills (.string s) (quote s) := fills_string h

theorem fills_escaped {s : Str} (hzero : 0 ∉ s) (hframed : ¬Framed s) :
    Fills (.string (s.flatMap escapeChar)) (stringifyString s) := by
  rw [stringifyString, if_neg hframed]
  exact fills_string (isSpelling_escape hzero)

theorem fills_inVector {items : List Var}
    (h : ∀ v ∈ items, Fills (jsonView numbers false v) (appendJSONString numbers v)) :
    Fills (.array (jsonItems numbers items)) (inVector (appendItems numbers items)) := by
  have hspace : Blank [32] := by decide
  rw [jsonItems_eq, appendItems_eq]
  cases items with
  | nil => exact fills_array_nil (w := [32, 32]) (by decide)
  | cons v items =>
    have hvector := fills_array hspace hspace hspace h (List.cons_ne_nil v items)
    have hopen : Str.ofString "[ " = [91, 32] := rfl
    have hclose : Str.ofString " ]" = [32, 93] := rfl
    rw [inVector, hopen, hclose]
    simpa using hvector

theorem fillsMember_text {k text : Str} {v : Json.Value} (hk : IsSpelling k) (hv : Fills v text)
    {colon : Str} (hcolon : colon = Str.ofString " : " ∨ colon = Str.ofString ":") :
    FillsMember k v (quote k ++ colon ++ text) := by
  rcases hcolon with rfl | rfl
  · refine ⟨[], [32], [32] ++ text, by decide, by decide, hk, hv.pad_left (by decide), ?_⟩
    rw [quote, colon_eq]
    simp
  · refine ⟨[], [], text, by decide, by decide, hk, hv, ?_⟩
    have hcolon : Str.ofString ":" = [58] := rfl
    rw [quote, hcolon]
    simp

theorem fills_inStruct {members : List (Str × Var)} (hkeys : ∀ m ∈ members, IsSpelling m.1)
    (h : ∀ m ∈ members, Fills (jsonView numbers false m.2) (appendJSONString numbers m.2)) :
    Fills (.object (jsonMembers numbers false members))
      (inStruct (appendMembers numbers members)) := by
  have hspace : Blank [32] := by decide
  have hmembers : ∀ m ∈ members, FillsMember m.1 (jsonView numbers false m.2)
      (memberText m.1 (appendJSONString numbers m.2)) := by
    intro m hm
    rw [← quote_colon]
    exact fillsMember_text (hkeys m hm) (h m hm) (.inl rfl)
  rw [jsonMembers_eq, appendMembers_eq]
  cases members with
  | nil => exact fills_object_nil (w := [32, 32]) (by decide)
  | cons m members =>
    have hstruct := fills_object hspace hspace hspace hmembers (List.cons_ne_nil m members)
    have hopen : Str.ofString "\x7b " = [123, 32] := rfl
    have hclose : Str.ofString " \x7d" = [32, 125] := rfl
    rw [inStruct, hopen, hclose]
    simpa using hstruct

/-- What stands before a name: for an object that is not on one line, the end of the line before it
and its indentation. -/
def lead (indent : Nat) : Str := (if indent > 0 then [10] else []) ++ List.replicate indent 32

theorem blank_lead (indent : Nat) : Blank (lead indent) := by
  intro c hc
  rw [lead, List.mem_append] at hc
  rcases hc with hc | hc
  · revert hc
    split
    · intro hc
      rw [List.mem_singleton.mp hc]
      rfl
    · exact nofun
  · rw [List.eq_of_mem_replicate hc]
    rfl

def memberLine (m : Str × Var) (indent : Nat) : Str :=
  quote m.1 ++ Str.ofString (if indent > 0 then " : " else ":") ++ stringify numbers m.2 indent

theorem stringifyMembers_eq (members : List (Str × Var)) (hne : members ≠ []) (indent : Nat) :
    stringifyMembers numbers members indent =
      List.replicate indent 32 ++
        (List.intercalate (44 :: lead indent) (members.map (memberLine numbers · indent)) ++
          (if indent > 0 then [10] else [])) := by
  have hnewline : (if indent > 0 then Str.ofString "\n" else []) =
      (if indent > 0 then [10] else [] : Str) := rfl
  induction members with
  | nil => exact absurd rfl hne
  | cons m members ih =>
    obtain ⟨k, v⟩ := m
    rw [stringifyMembers, hnewline]
    cases members with
    | nil => simp [stringifyMembers, memberLine]
    | cons m' members =>
      have hcomma : Str.ofString "," = [44] := rfl
      rw [ih (List.cons_ne_nil m' members), List.map_cons, List.map_cons, List.map_cons,
        intercalate_pair _ (memberLine numbers (k, v) indent)]
      simp [memberLine, lead, hcomma]

theorem fills_inObject {members : List (Str × Var)} {indent : Nat}
    (hkeys : ∀ m ∈ members, IsSpelling m.1)
    (h : ∀ m ∈ members, Fills (jsonView numbers true m.2) (stringify numbers m.2 indent)) :
    Fills (.object (jsonMembers numbers true members))
      (inObject (stringifyMembers numbers members indent) indent) := by
  have hopen : Str.ofString "\x7b" ++ (if indent > 0 then Str.ofString "\n" else []) =
      123 :: (if indent > 0 then [10] else []) := rfl
  have hclose : Str.ofString "\x7d" = [125] := rfl
  have hcolon : ∀ indent : Nat, Str.ofString (if indent > 0 then " : " else ":") =
      Str.ofString " : " ∨ Str.ofString (if indent > 0 then " : " else ":") = Str.ofString ":" := by
    intro indent
    split
    · exact .inl rfl
    · exact .inr rfl
  have hnewline : Blank (if indent > 0 then [10] else []) := by split <;> decide
  have hspaces : Blank (List.replicate (indent - 2) 32) := by
    intro c hc
    rw [List.eq_of_mem_replicate hc]
    rfl
  rw [jsonMembers_eq, inObject, hopen, hclose]
  cases members with
  | nil =>
    have hempty := fills_object_nil (List.forall_mem_append.mpr ⟨hnewline, hspaces⟩)
    simpa [stringifyMembers] using hempty
  | cons m members =>
    have hmembers : ∀ a ∈ m :: members, FillsMember a.1 (jsonView numbers true a.2)
        (memberLine numbers a indent) := fun a ha =>
      fillsMember_text (hkeys a ha) (h a ha) (hcolon indent)
    have hobject := fills_object (blank_lead indent) (blank_lead indent)
      (List.forall_mem_append.mpr ⟨hnewline, hspaces⟩) hmembers (List.cons_ne_nil m members)
    rw [stringifyMembers_eq numbers _ (List.cons_ne_nil m members)]
    simpa [lead] using hobject

/-- The text of such a value is JSON, and spells the value. -/
theorem IsJson.fills {escaped : Bool} {v : Var} (h : IsJson escaped v) (indent : Nat) :
    Fills (jsonView numbers escaped v)
      (if escaped then stringify numbers v indent else appendJSONString numbers v) := by
  induction h generalizing indent with
  | @empty escaped =>
    rw [jsonView]
    cases escaped <;> simpa [stringify, appendJSONString] using fills_null
  | @number escaped n =>
    rw [jsonView]
    cases escaped <;> simpa [stringify, appendJSONString] using fills_format numbers n
  | escaped hzero hframed =>
    rw [jsonView, if_pos rfl, stringify]
    exact fills_escaped hzero hframed
  | raw h =>
    rw [jsonView, if_neg Bool.false_ne_true, appendJSONString]
    exact fills_raw h
  | @vector escaped items h ih =>
    have hvector := fills_inVector numbers fun v hv => ih v hv 0
    rw [jsonView]
    cases escaped <;> simpa [stringify, appendJSONString] using hvector
  | @struct escaped members hkeys h ih =>
    have hstruct := fills_inStruct numbers hkeys fun m hm => ih m hm 0
    rw [jsonView]
    cases escaped <;> simpa [stringify, appendJSONString] using hstruct
  | @object escaped members hkeys h ih =>
    rw [jsonView]
    cases escaped with
    | true =>
      rw [if_pos rfl, stringify]
      exact fills_inObject numbers hkeys fun m hm => ih m hm _
    | false =>
      rw [if_neg Bool.false_ne_true, appendJSONString]
      exact fills_inObject numbers hkeys fun m hm => ih m hm 2

/-- What `Object::stringify` writes on one line. -/
theorem parse_stringifyObject {members : List (Str × Var)} (hkeys : ∀ m ∈ members, IsSpelling m.1)
    (h : ∀ m ∈ members, IsJson true m.2) :
    Json.parse (stringifyObject numbers members 0) =
      some (.object (jsonMembers numbers true members)) :=
  (fills_inObject numbers hkeys fun m hm => (h m hm).fills numbers 0).parse

/-- A string that is spelled as it is. -/
def IsLiteral (s : Str) : Prop := IsSpelling s ∧ 92 ∉ s

instance (s : Str) : Decidable (IsLiteral s) := inferInstanceAs (Decidable (_ ∧ _))

theorem IsLiteral.not_zero {s : Str} (h : IsLiteral s) : 0 ∉ s := fun hzero =>
  absurd (h.1.le_of_mem hzero) (by decide)

/-- A value whose strings its text spells as they are, or as `Stringifier::stringify` escapes them.
The members are in the order of their names. -/
inductive Literal : Bool → Var → Prop
  | empty {escaped : Bool} : Literal escaped .empty
  | number {escaped : Bool} {n : UInt32} : Literal escaped (.number n)
  | escaped {s : Str} (hzero : 0 ∉ s) (hframed : ¬Framed s) : Literal true (.string s)
  | raw {s : Str} (h : IsLiteral s) : Literal false (.string s)
  | vector {escaped : Bool} {items : List Var} (h : ∀ v ∈ items, Literal false v) :
      Literal escaped (.vector items)
  | struct {escaped : Bool} {members : List (Str × Var)} (hsorted : SortedMaps.Sorted members)
      (hkeys : ∀ m ∈ members, IsLiteral m.1) (h : ∀ m ∈ members, Literal false m.2) :
      Literal escaped (.struct members)
  | object {escaped : Bool} {members : List (Str × Var)} (hsorted : SortedMaps.Sorted members)
      (hkeys : ∀ m ∈ members, IsLiteral m.1) (h : ∀ m ∈ members, Literal true m.2) :
      Literal escaped (.object members)

mutual

/-- The value as JSON, wherever it stands.  For `Var::parse` what has no quotes is a string too. -/
def jsonOf (quoted : Bool) : Var → Json.Value
  | .empty => if quoted then .string null else .null
  | .string s => .string s
  | .number n => if quoted then .string (numbers.format n) else .number (numbers.format n)
  | .vector items => .array (jsonOfItems quoted items)
  | .struct members => .object (jsonOfMembers quoted members)
  | .object members => .object (jsonOfMembers quoted members)

def jsonOfItems (quoted : Bool) : List Var → List Json.Value
  | [] => []
  | v :: vs => jsonOf quoted v :: jsonOfItems quoted vs

def jsonOfMembers (quoted : Bool) : List (Str × Var) → List (Str × Json.Value)
  | [] => []
  | (k, v) :: ms => (k, jsonOf quoted v) :: jsonOfMembers quoted ms

end

theorem jsonOfItems_eq (quoted : Bool) (items : List Var) :
    jsonOfItems numbers quoted items = items.map (jsonOf numbers quoted) := by
  induction items with
  | nil => rw [jsonOfItems, List.map_nil]
  | cons v items ih => rw [jsonOfItems, ih, List.map_cons]

theorem jsonOfMembers_eq (quoted : Bool) (members : List (Str × Var)) :
    jsonOfMembers numbers quoted members =
      members.map fun m => (m.1, jsonOf numbers quoted m.2) := by
  induction members with
  | nil => rw [jsonOfMembers, List.map_nil]
  | cons m members ih => rw [jsonOfMembers, ih, List.map_cons]

theorem Literal.isJson {escaped : Bool} {v : Var} (h : Literal escaped v) : IsJson escaped v := by
  induction h with
  | empty => exact .empty
  | number => exact .number
  | escaped hzero hframed => exact .escaped hzero hframed
  | raw h => exact .raw h.1
  | vector h ih => exact .vector ih
  | struct hsorted hkeys h ih => exact .struct (fun m hm => (hkeys m hm).1) ih
  | object hsorted hkeys h ih => exact .object (fun m hm => (hkeys m hm).1) ih

/-- A string in an object is escaped, so that only a frame is in its way. -/
theorem Literal.inObject {v : Var} (h : Literal false v)
    (hframed : ∀ s, v = .string s → ¬Framed s) : Literal true v := by
  cases h with
  | empty => exact .empty
  | number => exact .number
  | raw h => exact .escaped h.not_zero (hframed _ rfl)
  | vector h => exact .vector h
  | struct hsorted hkeys h => exact .struct hsorted hkeys h
  | object hsorted hkeys h => exact .object hsorted hkeys h

theorem decoded_object {members : List (Str × Var)} {f : Var → Json.Value} {quoted : Bool}
    (hkeys : ∀ m ∈ members, IsLiteral m.1)
    (h : ∀ m ∈ members, (f m.2).decoded = some (jsonOf numbers quoted m.2)) :
    (Json.Value.object (members.map fun m => (m.1, f m.2))).decoded =
      some (.object (jsonOfMembers numbers quoted members)) := by
  rw [Value.decoded, jsonOfMembers_eq,
    decodedMembers_map (fun m hm => decode_literal (hkeys m hm).2) h]
  rfl

theorem decoded_array {items : List Var} {f : Var → Json.Value} {quoted : Bool}
    (h : ∀ v ∈ items, (f v).decoded = some (jsonOf numbers quoted v)) :
    (Json.Value.array (items.map f)).decoded =
      some (.array (jsonOfItems numbers quoted items)) := by
  rw [Value.decoded, jsonOfItems_eq, decodedElements_map h]
  rfl

/-- What the text of such a value spells stands for the value. -/
theorem Literal.decoded {escaped : Bool} {v : Var} (h : Literal escaped v) :
    (jsonView numbers escaped v).decoded = some (jsonOf numbers false v) := by
  induction h with
  | @empty escaped =>
    rw [jsonView, jsonOf]
    rfl
  | @number escaped n =>
    rw [jsonView, jsonOf]
    rfl
  | escaped hzero _ =>
    rw [jsonView, jsonOf, Value.decoded, decode_escape hzero]
    rfl
  | raw h =>
    rw [jsonView, jsonOf, Value.decoded, decode_literal h.2]
    rfl
  | vector h ih =>
    rw [jsonView, jsonOf, jsonItems_eq]
    exact decoded_array numbers ih
  | struct hsorted hkeys h ih =>
    rw [jsonView, jsonOf, jsonMembers_eq]
    exact decoded_object numbers hkeys ih
  | object hsorted hkeys h ih =>
    rw [jsonView, jsonOf, jsonMembers_eq]
    exact decoded_object numbers hkeys ih

/-- A value, and an indent at which the loops can count how far its members are indented. -/
structure Indented (v : Var) (indent : Nat) : Prop where
  literal : Literal true v
  counted : indent + 2 * v.depth < 2 ^ 31

/-- What `Stringifier::stringify` writes is JSON with the same value, however it is indented. -/
theorem parse_stringify {v : Var} {indent : Nat} (h : Indented v indent) :
    (Json.parse (stringify numbers v indent)).bind Value.decoded =
      some (jsonOf numbers false v) := by
  have hparse : Json.parse (stringify numbers v indent) = some (jsonView numbers true v) :=
    (h.literal.isJson.fills numbers indent).parse
  rw [hparse, Option.bind_some]
  exact h.literal.decoded numbers

/-- An object with a quote in a string, and with a vector. -/
def quotes : Var := .object [
  (Str.ofString "items", .vector [.string (Str.ofString "a"), .number 7]),
  (Str.ofString "quote", .string [34])]

theorem parse_quoted :
    (Json.parse (stringify decimal quotes 2)).bind Value.decoded =
      some (.object [(Str.ofString "items", .array [.string (Str.ofString "a"), .number [55]]),
        (Str.ofString "quote", .string [34])]) := by
  have hitems : ∀ v ∈ [Var.string (Str.ofString "a"), .number 7], Literal false v := by
    simp only [List.forall_mem_cons]
    exact ⟨.raw (by decide), .number, List.forall_mem_nil _⟩
  have hliteral : Literal true quotes := by
    refine .object (by decide) ?_ ?_
    · simp only [List.forall_mem_cons]
      decide
    · simp only [List.forall_mem_cons]
      exact ⟨.vector hitems, .escaped (by decide) (by decide), List.forall_mem_nil _⟩
  rw [parse_stringify decimal ⟨hliteral, by decide⟩]
  simp [quotes, jsonOf, jsonOfMembers, jsonOfItems, decimal]

/-- No string or key has a zero. -/
inductive Zeroless : Var → Prop
  | empty : Zeroless .empty
  | string {s : Str} (h : 0 ∉ s) : Zeroless (.string s)
  | number {n : UInt32} : Zeroless (.number n)
  | vector {items : List Var} (h : ∀ v ∈ items, Zeroless v) : Zeroless (.vector items)
  | struct {members : List (Str × Var)} (hkeys : ∀ m ∈ members, 0 ∉ m.1)
      (h : ∀ m ∈ members, Zeroless m.2) : Zeroless (.struct members)
  | object {members : List (Str × Var)} (hkeys : ∀ m ∈ members, 0 ∉ m.1)
      (h : ∀ m ∈ members, Zeroless m.2) : Zeroless (.object members)

theorem Literal.zeroless {escaped : Bool} {v : Var} (h : Literal escaped v) : Zeroless v := by
  induction h with
  | empty => exact .empty
  | number => exact .number
  | escaped hzero _ => exact .string hzero
  | raw h => exact .string h.not_zero
  | vector h ih => exact .vector ih
  | struct hsorted hkeys h ih => exact .struct (fun m hm => (hkeys m hm).not_zero) ih
  | object hsorted hkeys h ih => exact .object (fun m hm => (hkeys m hm).not_zero) ih

theorem zero_escape {s : Str} (h : 0 ∉ s) : 0 ∉ s.flatMap escapeChar := by
  have hchar : ∀ c : UInt8, 0 ∈ escapeChar c → c = 0 := forall_bytes (by decide +kernel)
  rw [List.mem_flatMap]
  rintro ⟨c, hc, hzero⟩
  exact h (hchar c hzero ▸ hc)

theorem zero_stringifyString {s : Str} (h : 0 ∉ s) : 0 ∉ stringifyString s := by
  rw [stringifyString]
  split
  · exact zero_escape fun hzero => h (List.mem_of_mem_drop hzero)
  · simpa using zero_escape h

theorem zero_intercalate {sep : Str} {texts : List Str} (hsep : 0 ∉ sep)
    (h : ∀ text ∈ texts, 0 ∉ text) : 0 ∉ List.intercalate sep texts := by
  induction texts with
  | nil => exact List.not_mem_nil
  | cons text texts ih =>
    rw [List.forall_mem_cons] at h
    cases texts with
    | nil => simpa using h.1
    | cons text' texts =>
      rw [List.intercalate_cons_cons, List.mem_append, List.mem_append, not_or, not_or]
      exact ⟨⟨h.1, hsep⟩, ih h.2⟩

theorem zero_replicate (n : Nat) : (0 : UInt8) ∉ List.replicate n 32 := fun h =>
  absurd (List.eq_of_mem_replicate h) (by decide)

theorem zero_inObject {members : List (Str × Var)} {indent : Nat}
    (hkeys : ∀ m ∈ members, 0 ∉ m.1) (h : ∀ m ∈ members, 0 ∉ stringify numbers m.2 indent) :
    0 ∉ inObject (stringifyMembers numbers members indent) indent := by
  have hnewline : (0 : UInt8) ∉ (if indent > 0 then Str.ofString "\n" else []) := by
    split <;> decide
  have hcolon : 0 ∉ Str.ofString (if indent > 0 then " : " else ":") := by split <;> decide
  have hopen : 0 ∉ Str.ofString "\x7b" := by decide
  have hclose : 0 ∉ Str.ofString "\x7d" := by decide
  have hmembers : 0 ∉ stringifyMembers numbers members indent := by
    induction members with
    | nil => simp [stringifyMembers]
    | cons m members ih =>
      rw [List.forall_mem_cons] at hkeys h
      have hcomma : (0 : UInt8) ∉ (if members.isEmpty then [] else Str.ofString ",") := by
        split <;> decide
      have hquote : 0 ∉ quote m.1 := by simpa [quote] using hkeys.1
      rw [stringifyMembers]
      simp only [List.mem_append, not_or]
      exact ⟨⟨⟨⟨⟨⟨zero_replicate indent, hquote⟩, hcolon⟩, h.1⟩, hcomma⟩, hnewline⟩,
        ih hkeys.2 h.2⟩
  rw [inObject]
  simp only [List.mem_append, not_or]
  exact ⟨⟨⟨⟨hopen, hnewline⟩, hmembers⟩, zero_replicate _⟩, hclose⟩

theorem zero_format (n : UInt32) : 0 ∉ numbers.format n := fun hzero =>
  absurd ((numbers.digits n).2 0 hzero) (by decide)

/-- The texts of such a value have no zero. -/
theorem Zeroless.texts {v : Var} (h : Zeroless v) :
    0 ∉ appendJSONString numbers v ∧ ∀ indent, 0 ∉ stringify numbers v indent := by
  induction h with
  | empty =>
    have hnull : 0 ∉ null := by decide
    exact ⟨by rwa [appendJSONString], fun _ => by rwa [stringify]⟩
  | @string s h =>
    refine ⟨?_, fun _ => ?_⟩
    · rw [appendJSONString]
      simpa [quote] using h
    · rw [stringify]
      exact zero_stringifyString h
  | @number n =>
    have hformat := zero_format numbers n
    exact ⟨by rwa [appendJSONString], fun _ => by rwa [stringify]⟩
  | @vector items h ih =>
    have hitems : 0 ∉ inVector (appendItems numbers items) := by
      have hcomma : (0 : UInt8) ∉ [44, 32] := by decide
      have htexts := zero_intercalate hcomma (List.forall_mem_map.mpr fun v hv => (ih v hv).1)
      have hopen : 0 ∉ Str.ofString "[ " := by decide
      have hclose : 0 ∉ Str.ofString " ]" := by decide
      rw [inVector, appendItems_eq]
      simp only [List.mem_append, not_or]
      exact ⟨⟨hopen, htexts⟩, hclose⟩
    exact ⟨by rwa [appendJSONString], fun _ => by rwa [stringify]⟩
  | @struct members hkeys h ih =>
    have hmembers : 0 ∉ inStruct (appendMembers numbers members) := by
      have hcomma : (0 : UInt8) ∉ [44, 32] := by decide
      have hmember : ∀ m ∈ members, 0 ∉ memberText m.1 (appendJSONString numbers m.2) :=
        fun m hm => by simpa [memberText] using ⟨hkeys m hm, (ih m hm).1⟩
      have htexts := zero_intercalate hcomma (List.forall_mem_map.mpr hmember)
      have hopen : 0 ∉ Str.ofString "\x7b " := by decide
      have hclose : 0 ∉ Str.ofString " \x7d" := by decide
      rw [inStruct, appendMembers_eq]
      simp only [List.mem_append, not_or]
      exact ⟨⟨hopen, htexts⟩, hclose⟩
    exact ⟨by rwa [appendJSONString], fun _ => by rwa [stringify]⟩
  | @object members hkeys h ih =>
    refine ⟨?_, fun indent => ?_⟩
    · rw [appendJSONString]
      exact zero_inObject numbers hkeys fun m hm => (ih m hm).2 2
    · rw [stringify]
      exact zero_inObject numbers hkeys fun m hm => (ih m hm).2 _

end Starfall.Vars
