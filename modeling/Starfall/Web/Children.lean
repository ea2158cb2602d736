import Mathlib.Data.List.Induction
import Starfall.Web.Properties

/-! Objects with attributes and children, which `_.arrayToObject` makes of the list of the children
and `_.eachObject` reads back. -/

namespace Starfall.Components

open ProofKit.Folds

variable {N : Type}

/-- `_.arrayToObject`, of an array whose elements are no arrays. -/
def arrayToObject : List (Value N) → Option (Value N)
  | [] => none
  | [elem] => some elem
  | elems => some (.object (elems.mapIdx fun i elem => (decimal i, elem)))

/-- What an object visits that inherits from a value, if it can. -/
def prototype (value : Value N) : Option (List (Str × Value N)) :=
  if value.isObject then some value.properties else none

/-- `_.extend`. -/
def extend (obj : Properties (Value N)) (source : Option (Value N)) : Properties (Value N) :=
  ((source.map Value.properties).getD []).foldl
    (fun obj (prop, value) => obj.set prototype prop value) obj

/-- A child: its tag is its only property. -/
def child (tag : Str) (value : Value N) : Value N := .object [(tag, value)]

/-- A record of attributes. -/
def record (attributes : List (Str × Str)) : Properties (Value N) where
  own := attributes.map fun (name, text) => (name, .string text)
  inherited := []

/-- What stands in an object with the given attributes and children. -/
def element (attributes : List (Str × Str)) (children : List (Str × Value N)) : Value N :=
  .object (extend (record attributes)
    (arrayToObject (children.map fun (tag, value) => child tag value))).forIn

/-- What stands in the object of a list of elements. -/
def indexed (elems : List (Value N)) : List (Str × Value N) :=
  elems.mapIdx fun i elem => (decimal i, elem)

/-- The children as elements of a list. -/
def tagged (children : List (Str × Value N)) : List (Value N) :=
  children.map fun (tag, value) => child tag value

/-- The children that have an array index come before properties whose keys are no numbers, and
the others behind them. -/
theorem extend_array (elems : List (Value N)) (obj : Properties (Value N))
    (h : ∀ property ∈ obj.own, Named property.1) :
    (indexed elems).foldl (fun obj (prop, value) => obj.set prototype prop value) obj =
      { obj with own := (indexed elems).take (2 ^ 32 - 1) ++ obj.own ++
          (indexed elems).drop (2 ^ 32 - 1) } := by
  induction elems using List.reverseRecOn with
  | nil => exact congrArg (Properties.mk · obj.inherited) (List.append_nil _).symm
  | append_singleton elems elem ih =>
    have hlength : (indexed elems).length = elems.length := List.length_mapIdx
    have hconcat : indexed (elems ++ [elem]) = indexed elems ++ [(decimal elems.length, elem)] :=
      List.mapIdx_concat
    have hkeys : ∀ property ∈ indexed elems, ∃ i, i < elems.length ∧ property.1 = decimal i := by
      intro property hproperty
      obtain ⟨i, hi, rfl⟩ := List.mem_mapIdx.mp hproperty
      exact ⟨i, hi, rfl⟩
    rw [hconcat, List.foldl_append, ih]
    show Properties.set _ _ _ _ = _
    rw [Properties.set_index]
    by_cases hlt : elems.length < 2 ^ 32 - 1
    · rw [List.take_of_length_le (by omega), List.drop_of_length_le (by omega),
        List.take_of_length_le (by simp; omega), List.drop_of_length_le (by simp; omega),
        List.append_nil, put_index hlt _ hkeys]
      · simp
      · exact fun property hproperty =>
          precedes_name (h property (List.mem_of_mem_head? hproperty)) hlt
    · rw [put_name elem (index_large (by omega)), List.take_append_of_le_length (by omega),
        List.drop_append_of_le_length (by omega), List.append_assoc _ _ [_]]
      rw [List.map_append, List.map_append, List.mem_append, List.mem_append]
      have hfresh : ∀ property ∈ indexed elems, property.1 ≠ decimal elems.length := by
        intro property hproperty heq
        obtain ⟨i, hi, hkey⟩ := hkeys property hproperty
        exact absurd (Coloring.decimal_injective (hkey.symm.trans heq)) (Nat.ne_of_lt hi)
      rintro ((hmem | hmem) | hmem)
      · obtain ⟨property, hproperty, hkey⟩ := List.mem_map.mp hmem
        exact hfresh property (List.mem_of_mem_take hproperty) hkey
      · obtain ⟨property, hproperty, hkey⟩ := List.mem_map.mp hmem
        exact h property hproperty _ hkey
      · obtain ⟨property, hproperty, hkey⟩ := List.mem_map.mp hmem
        exact hfresh property (List.mem_of_mem_drop hproperty) hkey

variable (num : Numbers N)

/-- What `_.eachObject` visits for one property. -/
def visited (property : Str × Value N) : Option (List (Option (Value N))) :=
  if (parseInt property.1).isSome then first num property.2
  else some (if property.2.isObject then [some property.2] else [])

theorem eachObject_forIn (properties : List (Str × Value N)) :
    eachObject num (some (.object properties)) = properties.flatMapM (visited num) := rfl

/-- The attributes are no objects, so that they are not visited. -/
theorem visited_record {attributes : List (Str × Str)}
    (h : ∀ attr ∈ attributes, (parseInt attr.1).isSome = false) :
    (record attributes).own.flatMapM (visited num) = some [] := by
  rw [flatMapM_some (g := fun _ => []), List.flatMap_eq_nil_iff.mpr fun _ _ => rfl]
  intro property hproperty
  obtain ⟨attr, hattr, rfl⟩ := List.mem_map.mp hproperty
  simp [visited, h attr hattr, Value.isObject]

/-- A child has a string where `_.each` asks for one. -/
def Readable (child : Str × Value N) : Prop :=
  child.1 = "length".toList → (child.2.toText num).isSome

/-- The children are visited, wherever the attributes stand between them. -/
theorem visited_indexed {attributes : List (Str × Str)} {children : List (Str × Value N)} (n : Nat)
    (hattributes : ∀ attr ∈ attributes, (parseInt attr.1).isSome = false)
    (hvalues : ∀ child ∈ children, child.2.isObject)
    (hlengths : ∀ child ∈ children, Readable num child) :
    ((indexed (tagged children)).take n ++
      (record attributes).own ++
        (indexed (tagged children)).drop n).flatMapM
          (visited num) = some (children.map fun child => some child.2) := by
  have hindexed : indexed (tagged children) =
      children.zipIdx.map fun c => (decimal c.2, child c.1.1 c.1.2) := by
    rw [indexed, tagged, List.mapIdx_eq_zipIdx_map, List.zipIdx_map, List.map_map]
    rfl
  have hvisited : ∀ part ⊆ children.zipIdx,
      (part.map fun c => (decimal c.2, child c.1.1 c.1.2)).flatMapM (visited num) =
        some (part.map fun c => some c.1.2) := by
    intro part hpart
    rw [flatMapM_map, List.map_eq_flatMap]
    apply flatMapM_some
    intro c hc
    have hmem : c.1 ∈ children := List.fst_mem_of_mem_zipIdx (hpart hc)
    rw [visited, if_pos (Coloring.parseInt_decimal c.2)]
    exact Coloring.first_single num c.1.1 (hvalues _ hmem) (hlengths _ hmem)
  have hvalues' : children.zipIdx.map (fun c => some c.1.2) =
      children.map fun child => some child.2 := by
    conv_rhs => rw [← List.zipIdx_map_fst 0 children, List.map_map]
    rfl
  rw [hindexed, ← List.map_take, ← List.map_drop, flatMapM_append, flatMapM_append,
    hvisited _ (List.take_subset _ _), hvisited _ (List.drop_subset _ _),
    visited_record num hattributes]
  show some (_ ++ [] ++ _) = _
  rw [List.append_nil, ← List.map_append, List.take_append_drop, hvalues']

theorem record_named {attributes : List (Str × Str)}
    (h : ∀ attr ∈ attributes, (parseInt attr.1).isSome = false) :
    ∀ property ∈ (record (N := N) attributes).own, Named property.1 := by
  intro property hproperty
  obtain ⟨attr, hattr, rfl⟩ := List.mem_map.mp hproperty
  exact Named.of_parseInt (h attr hattr)

/-- A single child stands under its tag. -/
theorem element_single {attributes : List (Str × Str)} {tag : Str} (value : Value N)
    (hindex : index tag = none) (hproto : tag ≠ "__proto__".toList)
    (hname : tag ∉ attributes.map Prod.fst) :
    element attributes [(tag, value)] = .object ((record attributes).own ++ [(tag, value)]) := by
  have hnew : (record (N := N) attributes).has tag = false := by
    rw [Bool.eq_false_iff, ne_eq, Properties.has_iff]
    simpa [record] using hname
  apply congrArg Value.object
  show ((record attributes).set prototype tag value).forIn = _
  rw [Properties.set_name prototype value hindex hproto hnew]
  exact List.append_nil _

/-- More children stand under their numbers. -/
theorem element_many {attributes : List (Str × Str)}
    (h : ∀ attr ∈ attributes, (parseInt attr.1).isSome = false) {children : List (Str × Value N)}
    (hmany : 2 ≤ children.length) :
    element attributes children =
      .object ((indexed (tagged children)).take (2 ^ 32 - 1) ++
        (record attributes).own ++
          (indexed (tagged children)).drop (2 ^ 32 - 1)) := by
  rcases children with _ | ⟨first, _ | ⟨second, rest⟩⟩
  · simp at hmany
  · simp at hmany
  · apply congrArg Value.object
    show ((indexed (tagged (first :: second :: rest))).foldl _ (record attributes)).forIn = _
    rw [extend_array _ _ (record_named h)]
    exact List.append_nil _

/-- A loop over an object with attributes and children visits the children, unless the only child
has the tag that assigns the prototype, or one of several is a `length` without a string. -/
theorem eachObject_element {attributes : List (Str × Str)} {children : List (Str × Value N)}
    (hattributes : ∀ attr ∈ attributes, (parseInt attr.1).isSome = false)
    (htags : ∀ child ∈ children, (parseInt child.1).isSome = false)
    (hvalues : ∀ child ∈ children, child.2.isObject)
    (hnames : ∀ child ∈ children, child.1 ∉ attributes.map Prod.fst)
    (hproto : ∀ value, children ≠ [("__proto__".toList, value)])
    (hlengths : 2 ≤ children.length → ∀ child ∈ children, Readable num child) :
    eachObject num (some (element attributes children)) =
      some (children.map fun child => some child.2) := by
  by_cases hmany : 2 ≤ children.length
  · rw [element_many hattributes hmany]
    exact visited_indexed num _ hattributes hvalues (hlengths hmany)
  · rcases children with _ | ⟨⟨tag, value⟩, _ | ⟨second, rest⟩⟩
    · have hnone : element (N := N) attributes [] = .object (record attributes).own :=
        congrArg Value.object (List.append_nil _)
      rw [hnone]
      exact visited_record num hattributes
    · rw [List.forall_mem_singleton] at htags hvalues hnames
      have htag : tag ≠ "__proto__".toList := by
        rintro rfl
        exact hproto value rfl
      rw [element_single value (Named.of_parseInt htags).index htag hnames, eachObject_forIn,
        flatMapM_append, visited_record num hattributes]
      simp [visited, htags, hvalues]
    · exact absurd (by simp) hmany

theorem parts_visited :
    eachObject integers (some (element [("name".toList, "Helmet".toList)]
      [("part".toList, .object []), ("length".toList, .object []), ("part".toList, .object [])])) =
      some [some (.object []), some (.object []), some (.object [])] := by
  apply eachObject_element integers
  · decide
  · simp
    decide
  · simp [Value.isObject]
  · simp
  · simp
  · simp [Readable, Value.toText]

/-- A single child that assigns the prototype is not visited, and a `length` without a string stops
the loop over several. -/
theorem children_lost :
    eachObject integers (some (element [] [("__proto__".toList, .object [])])) ≠
        some [some (.object [])] ∧
      eachObject integers (some (element [] [
        ("length".toList, .object [("toString".toList, .string ['x'])]),
        ("part".toList, .object [])])) ≠
        some [some (.object [("toString".toList, .string ['x'])]), some (.object [])] := by
  have hlost : eachObject integers (some (element [] [("__proto__".toList, .object [])])) =
      some [] := rfl
  have hthrown : eachObject integers (some (element [] [
      ("length".toList, .object [("toString".toList, .string ['x'])]),
      ("part".toList, .object [])])) = none := rfl
  rw [hlost, hthrown]
  exact ⟨fun h => List.cons_ne_nil _ _ (Option.some.inj h).symm, fun h => by cases h⟩

end Starfall.Components
