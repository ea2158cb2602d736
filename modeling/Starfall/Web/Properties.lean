import Mathlib.Algebra.GroupWithZero.Nat
import Starfall.Web.Objects

/-! Objects to which scripts assign properties: the order of their keys, and what they inherit from
a prototype that was assigned to `__proto__`. -/

namespace Starfall.Components

/-- The array index that a key is, where `for in` visits the array indices first. -/
def index (prop : Str) : Option Nat :=
  let n := Nat.ofDigitChars 10 prop 0
  if decimal n = prop ∧ n < 2 ^ 32 - 1 then some n else none

/-- Whether a new key is visited before another. -/
def precedes (prop other : Str) : Bool :=
  match index prop, index other with
  | some n, some m => n < m
  | some _, none => true
  | none, _ => false

variable {V : Type}

/-- The properties with one that is assigned. -/
def put (prop : Str) (value : V) : List (Str × V) → List (Str × V)
  | [] => [(prop, value)]
  | first :: rest =>
    if first.1 = prop then (prop, value) :: rest
    else if precedes prop first.1 then (prop, value) :: first :: rest
    else first :: put prop value rest

/-- The own properties of an object, and those of its prototype. -/
structure Properties (V : Type) where
  own : List (Str × V)
  inherited : List (Str × V)

namespace Properties

def has (obj : Properties V) (prop : Str) : Bool := (obj.own.map Prod.fst).contains prop

/-- What `for in` visits. -/
def forIn (obj : Properties V) : List (Str × V) :=
  obj.own ++ obj.inherited.filter fun property => !obj.has property.1

/-- `obj[prop] = value`, where `prototype` is what an object visits that inherits from a value. -/
def set (prototype : V → Option (List (Str × V))) (obj : Properties V) (prop : Str) (value : V) :
    Properties V :=
  if prop = "__proto__".toList ∧ obj.has prop = false then
    { obj with inherited := (prototype value).getD obj.inherited }
  else { obj with own := put prop value obj.own }

end Properties

theorem index_decimal {n : Nat} (h : n < 2 ^ 32 - 1) : index (decimal n) = some n := by
  have hdigits : Nat.ofDigitChars 10 (decimal n) 0 = n := by
    rw [decimal, Nat.ofDigitChars_ten_toDigits]
  rw [index, hdigits]
  exact if_pos ⟨rfl, h⟩

theorem index_large {n : Nat} (h : 2 ^ 32 - 1 ≤ n) : index (decimal n) = none := by
  have hdigits : Nat.ofDigitChars 10 (decimal n) 0 = n := by
    rw [decimal, Nat.ofDigitChars_ten_toDigits]
  rw [index, hdigits]
  exact if_neg fun hlt => absurd hlt.2 (Nat.not_lt.mpr h)

/-- A key that is the text of no number. -/
def Named (prop : Str) : Prop := ∀ n, prop ≠ decimal n

theorem Named.index {prop : Str} (h : Named prop) : index prop = none :=
  if_neg fun hprop => h _ hprop.1.symm

theorem Named.of_parseInt {prop : Str} (h : (parseInt prop).isSome = false) : Named prop := by
  rintro n rfl
  rw [Coloring.parseInt_decimal] at h
  cases h

theorem precedes_name {prop : Str} (h : Named prop) {n : Nat} (hn : n < 2 ^ 32 - 1) :
    precedes (decimal n) prop ∧ prop ≠ decimal n := by
  refine ⟨?_, h n⟩
  rw [precedes, index_decimal hn, h.index]

/-- A key that is a number comes after those that are less. -/
theorem put_index {n : Nat} (hn : n < 2 ^ 32 - 1) (value : V) {before after : List (Str × V)}
    (hbefore : ∀ property ∈ before, ∃ m, m < n ∧ property.1 = decimal m)
    (hafter : ∀ property ∈ after.head?, precedes (decimal n) property.1 ∧
      property.1 ≠ decimal n) :
    put (decimal n) value (before ++ after) = before ++ (decimal n, value) :: after := by
  induction before with
  | nil =>
    cases after with
    | nil => rfl
    | cons first rest =>
      obtain ⟨hprecedes, hne⟩ := hafter first rfl
      rw [List.nil_append, put, if_neg hne, if_pos hprecedes]
      rfl
  | cons first before ih =>
    rw [List.forall_mem_cons] at hbefore
    obtain ⟨⟨m, hm, hfirst⟩, hbefore⟩ := hbefore
    have hne : first.1 ≠ decimal n := by
      intro heq
      have := Coloring.decimal_injective (hfirst.symm.trans heq)
      omega
    have hprecedes : ¬precedes (decimal n) first.1 := by
      rw [precedes, hfirst, index_decimal hn, index_decimal (Nat.lt_trans hm hn)]
      simp
      omega
    rw [List.cons_append, put, if_neg hne, if_neg hprecedes, ih hbefore]
    rfl

/-- A new key that is no number comes last. -/
theorem put_name {prop : Str} (value : V) (hindex : index prop = none) {own : List (Str × V)}
    (h : prop ∉ own.map Prod.fst) : put prop value own = own ++ [(prop, value)] := by
  induction own with
  | nil => rfl
  | cons first own ih =>
    rw [List.map_cons, List.mem_cons, not_or] at h
    have hprecedes : ¬precedes prop first.1 := by
      rw [precedes, hindex]
      simp
    rw [put, if_neg (Ne.symm h.1), if_neg hprecedes, ih h.2]
    rfl

theorem mem_put {prop : Str} {value : V} {own : List (Str × V)} {key : Str} :
    key ∈ (put prop value own).map Prod.fst ↔ key = prop ∨ key ∈ own.map Prod.fst := by
  induction own with
  | nil => simp [put]
  | cons first own ih =>
    rw [put]
    split
    · rename_i heq
      simp [heq]
    · split
      · simp
      · rw [List.map_cons, List.mem_cons, ih, List.map_cons, List.mem_cons]
        exact or_left_comm

theorem lookup_ite (key : Str) (first : Str × V) (own : List (Str × V)) :
    (first :: own).lookup key = if key = first.1 then some first.2 else own.lookup key := by
  rw [List.lookup_cons]
  split
  · rename_i heq
    rw [if_pos (eq_of_beq heq)]
  · rename_i hne
    rw [if_neg (ne_of_beq_false hne)]

/-- A property that is assigned is found under its key, and the others stay as they are. -/
theorem lookup_put (prop : Str) (value : V) (own : List (Str × V)) (key : Str) :
    (put prop value own).lookup key = if key = prop then some value else own.lookup key := by
  induction own with
  | nil => exact lookup_ite key (prop, value) []
  | cons first own ih =>
    rw [put]
    by_cases hfirst : first.1 = prop
    · rw [if_pos hfirst, lookup_ite, lookup_ite, hfirst]
      split <;> rfl
    · rw [if_neg hfirst]
      split
      · exact lookup_ite key (prop, value) (first :: own)
      · rw [lookup_ite, lookup_ite, ih]
        by_cases hkey : key = first.1
        · rw [if_pos hkey, if_pos hkey, if_neg (hkey ▸ hfirst)]
        · rw [if_neg hkey, if_neg hkey]

/-- What holds of the properties and of the one that is assigned holds afterwards. -/
theorem forall_put {p : Str × V → Prop} {prop : Str} {value : V} {own : List (Str × V)}
    (h : ∀ property ∈ own, p property) (hvalue : p (prop, value)) :
    ∀ property ∈ put prop value own, p property := by
  induction own with
  | nil => simpa [put] using hvalue
  | cons first own ih =>
    obtain ⟨hfirst, hown⟩ := List.forall_mem_cons.mp h
    rw [put]
    split
    · exact List.forall_mem_cons.mpr ⟨hvalue, hown⟩
    · split
      · exact List.forall_mem_cons.mpr ⟨hvalue, h⟩
      · exact List.forall_mem_cons.mpr ⟨hfirst, ih hown⟩

namespace Properties

theorem has_iff {obj : Properties V} {prop : Str} :
    obj.has prop = true ↔ prop ∈ obj.own.map Prod.fst := by
  rw [has, List.contains_iff_mem]

theorem mem_forIn {obj : Properties V} {key : Str} :
    key ∈ obj.forIn.map Prod.fst ↔
      key ∈ obj.own.map Prod.fst ∨ key ∈ obj.inherited.map Prod.fst := by
  rw [forIn, List.map_append, List.mem_append]
  constructor
  · rintro (h | h)
    · exact .inl h
    · exact .inr (List.map_subset _ (List.filter_subset_self _) h)
  · rintro (h | h)
    · exact .inl h
    · by_cases hown : key ∈ obj.own.map Prod.fst
      · exact .inl hown
      · obtain ⟨property, hproperty, rfl⟩ := List.mem_map.mp h
        refine .inr (List.mem_map_of_mem (List.mem_filter.mpr ⟨hproperty, ?_⟩))
        rw [← has_iff] at hown
        simpa using hown

theorem set_index (prototype : V → Option (List (Str × V))) (obj : Properties V) (n : Nat)
    (value : V) :
    obj.set prototype (decimal n) value = { obj with own := put (decimal n) value obj.own } := by
  have hproto : "__proto__".toList ≠ decimal n := Named.of_parseInt (by decide) n
  rw [set, if_neg]
  rintro ⟨heq, -⟩
  exact hproto heq.symm

theorem set_name (prototype : V → Option (List (Str × V))) {obj : Properties V} {prop : Str}
    (value : V) (hindex : index prop = none) (hproto : prop ≠ "__proto__".toList)
    (h : obj.has prop = false) :
    obj.set prototype prop value = { obj with own := obj.own ++ [(prop, value)] } := by
  have hown : prop ∉ obj.own.map Prod.fst := by
    rw [← has_iff, h]
    simp
  rw [set, if_neg fun hset => hproto hset.1, put_name value hindex hown]

theorem set_eq_put (prototype : V → Option (List (Str × V))) (obj : Properties V) {prop : Str}
    (value : V) (hproto : prop ≠ "__proto__".toList) :
    obj.set prototype prop value = { obj with own := put prop value obj.own } := by
  rw [set, if_neg fun hset => hproto hset.1]

theorem lookup_set (prototype : V → Option (List (Str × V))) (obj : Properties V) {prop : Str}
    (value : V) (hproto : prop ≠ "__proto__".toList) (key : Str) :
    (obj.set prototype prop value).own.lookup key =
      if key = prop then some value else obj.own.lookup key := by
  rw [set_eq_put prototype obj value hproto, lookup_put]

/-- The keys behind an assignment, of which none is `__proto__` if there was none. -/
theorem mem_set (prototype : V → Option (List (Str × V))) {obj : Properties V}
    (h : obj.has "__proto__".toList = false) (prop : Str) (value : V) {key : Str} :
    key ∈ (obj.set prototype prop value).own.map Prod.fst ↔
      key ∈ obj.own.map Prod.fst ∨ key = prop ∧ key ≠ "__proto__".toList := by
  by_cases hproto : prop = "__proto__".toList
  · rw [set, if_pos ⟨hproto, hproto ▸ h⟩]
    exact (or_iff_left fun hkey => hkey.2 (hkey.1.trans hproto)).symm
  · rw [set_eq_put prototype obj value hproto, mem_put, or_comm]
    refine or_congr Iff.rfl ⟨fun hkey => ⟨hkey, hkey ▸ hproto⟩, And.left⟩

theorem forall_set (prototype : V → Option (List (Str × V))) {obj : Properties V}
    {p : Str × V → Prop} {prop : Str} {value : V} (h : ∀ property ∈ obj.own, p property)
    (hvalue : p (prop, value)) : ∀ property ∈ (obj.set prototype prop value).own, p property := by
  rw [set]
  split
  · exact h
  · exact forall_put h hvalue

/-- Assigning `__proto__` makes no own property of that name. -/
theorem has_proto_set (prototype : V → Option (List (Str × V))) {obj : Properties V}
    (h : obj.has "__proto__".toList = false) (prop : Str) (value : V) :
    (obj.set prototype prop value).has "__proto__".toList = false := by
  rw [Bool.eq_false_iff, ne_eq, has_iff, mem_set prototype h, ← has_iff, h]
  simp

end Properties

end Starfall.Components
