import Mathlib.Algebra.GroupWithZero.Nat
import Mathlib.Data.List.Perm.Basic
import Starfall.Script.Layouts

/-! What `_.eachObject` visits in the object that `Xml2Json` makes of an element. -/

namespace Starfall.Xml2Json

open Components (Named Properties decimal parseInt)
open ProofKit.Folds

/-- What is visited for one property where nothing throws. -/
def Value.shown (prop : Str) (value : Value) : List Value :=
  if (parseInt prop).isSome then value.first.toList
  else if value.isObject then [value]
  else []

/-- What a loop that does not throw visits. -/
def seen (obj : Properties Value) : List Value :=
  obj.forIn.flatMap fun property => property.2.shown property.1

/-- No property stops the loop. -/
def Quiet (obj : Properties Value) : Prop :=
  ∀ property ∈ obj.forIn, (parseInt property.1).isSome → property.2.unreadable = false

theorem eachObject_iff {obj : Properties Value} {values : List Value} :
    eachObject obj = some values ↔ Quiet obj ∧ seen obj = values := by
  have hvisited : ∀ property : Str × Value,
      ((parseInt property.1).isSome → property.2.unreadable = false) →
        property.2.visited property.1 = some (property.2.shown property.1) := by
    intro property hquiet
    rw [Value.visited, Value.shown]
    split
    · rename_i hparse
      rw [hquiet hparse]
      rfl
    · rfl
  constructor
  · intro h
    have hquiet : Quiet obj := by
      intro property hproperty hparse
      have hsome := isSome_flatMapM.mp (Option.isSome_of_eq_some h) property hproperty
      rw [Value.visited, if_pos hparse] at hsome
      cases hthrows : property.2.unreadable with
      | true =>
        rw [hthrows] at hsome
        cases hsome
      | false => rfl
    have hseen : eachObject obj = some (seen obj) :=
      flatMapM_some fun property hproperty => hvisited property (hquiet property hproperty)
    exact ⟨hquiet, Option.some.inj (hseen.symm.trans h)⟩
  · rintro ⟨hquiet, rfl⟩
    exact flatMapM_some fun property hproperty => hvisited property (hquiet property hproperty)

/-- The size of some values together. -/
noncomputable def total (values : List Value) : Nat := (values.map sizeOf).sum

theorem total_append (values others : List Value) :
    total (values ++ others) = total values + total others := by
  rw [total, List.map_append, List.sum_append]
  rfl

theorem total_perm {values others : List Value} (h : values.Perm others) :
    total values = total others := (h.map sizeOf).sum_nat

theorem sizeOf_pos (value : Value) : 0 < sizeOf value := by
  cases value with
  | string s =>
    rw [Value.string.sizeOf_spec]
    omega
  | object own inherited =>
    rw [Value.object.sizeOf_spec]
    omega

theorem total_properties (properties : List (Str × Value)) :
    total (properties.map Prod.snd) ≤ sizeOf properties := by
  induction properties with
  | nil => simp [total]
  | cons property properties ih =>
    obtain ⟨prop, value⟩ := property
    simp [total] at ih ⊢
    omega

theorem total_filter (p : Str × Value → Bool) (properties : List (Str × Value)) :
    total ((properties.filter p).map Prod.snd) ≤ total (properties.map Prod.snd) := by
  induction properties with
  | nil => exact Nat.le_refl _
  | cons property properties ih =>
    rw [List.filter_cons]
    split
    · exact Nat.add_le_add_left ih _
    · exact Nat.le_trans ih (Nat.le_add_left _ _)

theorem first_lt {value first : Value} (hobject : value.isObject)
    (h : value.first = some first) : sizeOf first < sizeOf value := by
  cases value with
  | string s => cases hobject
  | object own inherited =>
    obtain ⟨property, hproperty, rfl⟩ := Option.map_eq_some_iff.mp h
    obtain ⟨rest, rfl⟩ := List.head?_eq_some_iff.mp hproperty
    obtain ⟨prop, value⟩ := property
    simp
    omega

/-- What is visited for a property is part of its value. -/
theorem shown_le (prop : Str) (value : Value) : total (value.shown prop) ≤ sizeOf value := by
  rw [Value.shown]
  split
  · cases value with
    | string s =>
      cases s with
      | nil => simp [Value.first, total]
      | cons c rest =>
        have : 1 ≤ sizeOf rest := by
          cases rest with
          | nil => simp
          | cons c rest =>
            simp
            omega
        simpa [Value.first, total] using this
    | object own inherited =>
      cases hfirst : (Value.object own inherited).first with
      | none => simp [total]
      | some first => simpa [total] using Nat.le_of_lt (first_lt rfl hfirst)
  · split <;> simp [total]

theorem shown_lt {prop : Str} {value : Value} (hobject : value.isObject)
    (h : (parseInt prop).isSome) : total (value.shown prop) < sizeOf value := by
  rw [Value.shown, if_pos h]
  cases hfirst : value.first with
  | none =>
    simpa [total] using sizeOf_pos value
  | some first => simpa [total] using first_lt hobject hfirst

theorem shown_total (properties : List (Str × Value)) :
    total (properties.flatMap fun property => property.2.shown property.1) ≤
      total (properties.map Prod.snd) := by
  induction properties with
  | nil => exact Nat.le_refl _
  | cons property properties ih =>
    have hfirst := shown_le property.1 property.2
    rw [List.flatMap_cons, total_append]
    show _ ≤ sizeOf property.2 + total (properties.map Prod.snd)
    omega

/-- What is visited through a prototype is part of it. -/
theorem prototype_total {value : Value} {properties : List (Str × Value)}
    (h : value.prototype = some properties) :
    total (properties.map Prod.snd) < sizeOf value := by
  cases value with
  | string s => cases h
  | object own inherited =>
    obtain rfl := Option.some.inj h
    have hown := total_properties own
    have hinherited := total_properties inherited
    rw [Properties.forIn, List.map_append, total_append, Value.object.sizeOf_spec]
    have hfilter := Nat.le_trans (total_filter
      (fun property => !(Properties.mk own inherited).has property.1) inherited) hinherited
    calc
      _ ≤ sizeOf own + sizeOf inherited := Nat.add_le_add hown hfilter
      _ < 1 + sizeOf own + sizeOf inherited := by omega

/-- What is kept under its own tag is visited as it is, unless the tag reads as a number. -/
theorem shown_kept {kept : List (Str × Value)} (hobject : ∀ k ∈ kept, k.2.isObject) :
    total (kept.flatMap fun k => k.2.shown k.1) = total (kept.map Prod.snd) ↔
      ∀ k ∈ kept, (parseInt k.1).isSome = false := by
  induction kept with
  | nil => simp
  | cons k kept ih =>
    rw [List.forall_mem_cons] at hobject ⊢
    rw [← ih hobject.2, List.flatMap_cons, total_append]
    have hrest := shown_total kept
    show _ = sizeOf k.2 + total (kept.map Prod.snd) ↔ _
    cases hparse : (parseInt k.1).isSome with
    | true =>
      have hlt := shown_lt hobject.1 hparse
      simp
      omega
    | false =>
      have hshown : k.2.shown k.1 = [k.2] := by
        rw [Value.shown, hparse, hobject.1]
        rfl
      rw [hshown]
      simp [total]

theorem wrap_eq {tag : Str} (h : tag ≠ "__proto__".toList) (value : Value) :
    wrap tag value = .object [(tag, value)] [] := by
  rw [wrap, Properties.set, if_neg fun hset => h hset.1]
  rfl

section Level

variable {attr items : List (Str × Value)} {obj : Properties Value}
  {repeats : List (Nat × Str × Value)} {kept protos : List (Str × Value)}

/-- What is visited in an object: the children under numbers, then what its own tags and what it
inherits show. -/
theorem Laid.seen_shown (h : Laid attr items obj repeats kept protos) :
    ∃ inherited, seen obj = repeats.map (·.2.2) ++
      (attr.flatMap (fun a => a.2.shown a.1) ++ kept.flatMap fun k => k.2.shown k.1) ++
        inherited ∧
      (protos = [] → inherited = []) ∧
      (protos ≠ [] → total inherited < total (protos.map Prod.snd)) := by
  have hrepeats : (repeats.map fun r => (decimal r.1, wrap r.2.1 r.2.2)).flatMap
      (fun property => property.2.shown property.1) = repeats.map (·.2.2) := by
    rw [List.flatMap_map, List.map_eq_flatMap]
    apply List.flatMap_congr
    intro r hr
    rw [wrap_eq (h.again r hr), Value.shown, if_pos (Coloring.parseInt_decimal r.1)]
    rfl
  refine ⟨(obj.inherited.filter fun property => !obj.has property.1).flatMap
    (fun property => property.2.shown property.1), ?_, ?_, ?_⟩
  · have hown := congrArg (List.flatMap fun property => property.2.shown property.1) h.own
    rw [List.flatMap_append, List.flatMap_append, hrepeats] at hown
    rw [seen, Properties.forIn, List.flatMap_append, hown]
  · intro hprotos
    rw [h.inherited, hprotos]
    rfl
  · intro hprotos
    obtain ⟨init, p, rfl⟩ := (List.eq_nil_or_concat' protos).resolve_left hprotos
    have hshown := Nat.le_trans (shown_total (obj.inherited.filter fun property =>
      !obj.has property.1)) (total_filter _ _)
    refine Nat.lt_of_le_of_lt hshown ?_
    rw [h.inherited, List.getLast?_concat, List.map_append, total_append]
    show _ < _ + sizeOf p.2
    cases hprototype : p.2.prototype with
    | none =>
      have hpos := sizeOf_pos p.2
      simp [total, hprototype]
      omega
    | some properties =>
      have hlt := prototype_total hprototype
      simp only [Option.bind_some, hprototype, Option.getD_some]
      omega

theorem Laid.objects (h : Laid attr items obj repeats kept protos)
    (hitems : ∀ item ∈ items, item.2.isObject) : ∀ k ∈ kept, k.2.isObject := by
  intro k hk
  apply hitems k
  apply h.perm.mem_iff.mp
  simp [hk]

/-- Nothing but the children is visited when none is the prototype and no name that is left reads
as a number. -/
theorem Laid.seen_eq (h : Laid attr items obj repeats kept protos)
    (hitems : ∀ item ∈ items, item.2.isObject) (hprotos : protos = [])
    (hkept : ∀ k ∈ kept, (parseInt k.1).isSome = false)
    (hattr : ∀ a ∈ attr, a.2.shown a.1 = []) :
    seen obj = (repeats.map Prod.snd ++ kept).map Prod.snd := by
  obtain ⟨inherited, hshown, hnil, -⟩ := h.seen_shown
  have hvalues : kept.flatMap (fun k => k.2.shown k.1) = kept.map Prod.snd := by
    rw [List.map_eq_flatMap]
    apply List.flatMap_congr
    intro k hk
    rw [Value.shown, hkept k hk, h.objects hitems k hk]
    rfl
  rw [hshown, hnil hprotos, List.flatMap_eq_nil_iff.mpr hattr, hvalues, List.nil_append,
    List.append_nil, List.map_append, List.map_map]
  rfl

theorem shown_string {prop s : Str} {value : Value}
    (h : value ∈ (Value.string s).shown prop) : value.isObject = false := by
  rw [Value.shown] at h
  split at h
  · cases s with
    | nil => simp [Value.first] at h
    | cons c rest =>
      obtain rfl : value = .string [c] := by simpa [Value.first] using h
      rfl
  · simp [Value.isObject] at h

/-- The children are visited, each once, exactly when none is the prototype and no name that is
left reads as a number. -/
theorem Laid.perm_iff (h : Laid attr items obj repeats kept protos)
    (hattr : ∀ a ∈ attr, ∃ s, a.2 = .string s) (hitems : ∀ item ∈ items, item.2.isObject) :
    (seen obj).Perm (items.map Prod.snd) ↔ protos = [] ∧
      (∀ k ∈ kept, (parseInt k.1).isSome = false) ∧ ∀ a ∈ attr, a.2.shown a.1 = [] := by
  constructor
  · intro hread
    obtain ⟨inherited, hshown, hnil, hlt⟩ := h.seen_shown
    have hperm := h.perm.symm.map Prod.snd
    rw [List.map_append, List.map_append, List.map_map] at hperm
    have hunread : attr.flatMap (fun a => a.2.shown a.1) = [] := by
      rw [List.eq_nil_iff_forall_not_mem]
      intro value hvalue
      have hmem : value ∈ seen obj := by
        rw [hshown]
        exact List.mem_append_left _ (List.mem_append_right _ (List.mem_append_left _ hvalue))
      obtain ⟨item, hitem, rfl⟩ := List.mem_map.mp (hread.mem_iff.mp hmem)
      obtain ⟨a, ha, hvalue⟩ := List.mem_flatMap.mp hvalue
      obtain ⟨s, hs⟩ := hattr a ha
      rw [hs] at hvalue
      have hobject := hitems item hitem
      rw [shown_string hvalue] at hobject
      cases hobject
    have hrest := hread.trans hperm
    rw [hshown, hunread, List.nil_append, List.append_assoc] at hrest
    have htotal := total_perm ((List.perm_append_left_iff _).mp hrest)
    have hle := shown_total kept
    rw [total_append, total_append] at htotal
    have hprotos : protos = [] := by
      apply Classical.byContradiction
      intro hne
      have := hlt hne
      omega
    subst hprotos
    refine ⟨rfl, (shown_kept (h.objects hitems)).mp ?_, List.flatMap_eq_nil_iff.mp hunread⟩
    rw [hnil rfl] at htotal
    simpa [total] using htotal
  · rintro ⟨hprotos, hkept, hunread⟩
    rw [h.seen_eq hitems hprotos hkept hunread]
    have hperm := h.perm.map Prod.snd
    rwa [hprotos, List.append_nil] at hperm

theorem Laid.protos_iff (h : Laid attr items obj repeats kept protos) :
    protos = [] ↔ "__proto__".toList ∉ items.map Prod.fst := by
  constructor
  · rintro hprotos hmem
    obtain ⟨item, hitem, hproto⟩ := List.mem_map.mp hmem
    have hstored := h.perm.mem_iff.mpr hitem
    rw [hprotos, List.append_nil] at hstored
    rcases List.mem_append.mp hstored with hstored | hstored
    · obtain ⟨r, hr, rfl⟩ := List.mem_map.mp hstored
      exact h.again r hr hproto
    · exact ((h.names _).mp (List.mem_map_of_mem hstored)).2.1 hproto
  · intro hmem
    rw [List.eq_nil_iff_forall_not_mem]
    intro p hp
    apply hmem
    rw [← h.proto p hp]
    apply List.mem_map_of_mem
    apply h.perm.mem_iff.mp
    simp [hp]

theorem Laid.plain_iff (h : Laid attr items obj repeats kept protos)
    (hproto : "__proto__".toList ∉ items.map Prod.fst) :
    (∀ k ∈ kept, (parseInt k.1).isSome = false) ↔ ∀ name ∈ items.map Prod.fst,
      moved (items.map Prod.fst) ≠ some name → (parseInt name).isSome = false := by
  constructor
  · intro hkept name hname hmoved
    have hne : name ≠ "__proto__".toList := by
      rintro rfl
      exact hproto hname
    obtain ⟨k, hk, rfl⟩ := List.mem_map.mp ((h.names name).mpr ⟨hname, hne, hmoved⟩)
    exact hkept k hk
  · intro hnames k hk
    obtain ⟨hname, -, hmoved⟩ := (h.names k.1).mp (List.mem_map_of_mem hk)
    exact hnames k.1 hname hmoved

end Level

/-- The loop is stopped by nothing but a child under a number that is tagged `length`. -/
theorem Laid.quiet_iff (h : Laid attr items obj repeats kept protos) (hprotos : protos = [])
    (hattr : ∀ a ∈ attr, ∃ s, a.2 = .string s)
    (hkept : ∀ k ∈ kept, (parseInt k.1).isSome = false) :
    Quiet obj ↔ ∀ item ∈ (repeats.map Prod.snd).filter (·.1 = "length".toList),
      item.2.unprintable = false := by
  have hforIn : obj.forIn = obj.own := by
    rw [Properties.forIn, h.inherited, hprotos]
    exact List.append_nil _
  have hwrap : ∀ r ∈ repeats, (wrap r.2.1 r.2.2).unreadable = false ↔
      (r.2.1 = "length".toList → r.2.2.unprintable = false) := by
    intro r hr
    rw [wrap_eq (h.again r hr), Value.unreadable, List.append_nil, Components.lookup_ite]
    by_cases hlength : r.2.1 = "length".toList
    · rw [if_pos hlength.symm]
      exact ⟨fun hread _ => hread, fun hread => hread hlength⟩
    · rw [if_neg (Ne.symm hlength)]
      exact iff_of_true rfl fun heq => absurd heq hlength
  rw [Quiet, hforIn, h.own]
  simp only [List.mem_append, List.mem_filter, List.mem_map, decide_eq_true_iff]
  constructor
  · rintro hquiet item ⟨⟨r, hr, rfl⟩, hlength⟩
    have hread := hquiet _ (.inl ⟨r, hr, rfl⟩) (Coloring.parseInt_decimal r.1)
    exact (hwrap r hr).mp hread hlength
  · rintro hlengths property (⟨r, hr, rfl⟩ | hmem | hmem) hparse
    · exact (hwrap r hr).mpr fun hlength => hlengths r.2 ⟨⟨r, hr, rfl⟩, hlength⟩
    · obtain ⟨s, hs⟩ := hattr property hmem
      rw [hs]
      rfl
    · rw [hkept property hmem] at hparse
      cases hparse

/-- The object has a string unless an attribute or a child that is kept hides `toString`. -/
theorem Laid.unprintable_iff (h : Laid attr items obj repeats kept protos)
    (hprotos : protos = []) : (Value.ofProperties obj).unprintable = false ↔
      "toString".toList ∉ attr.map Prod.fst ∧ ("toString".toList ∈ items.map Prod.fst →
        moved (items.map Prod.fst) = some "toString".toList) := by
  have hinherited : obj.inherited = [] := by
    rw [h.inherited, hprotos]
    rfl
  have hnumbers : "toString".toList ∉
      (repeats.map fun r => (decimal r.1, wrap r.2.1 r.2.2)).map Prod.fst := by
    rw [List.map_map, List.mem_map]
    rintro ⟨r, -, hr⟩
    exact Components.Named.of_parseInt (by decide) r.1 hr.symm
  rw [Value.ofProperties, Value.unprintable, hinherited, List.append_nil, Bool.eq_false_iff, ne_eq,
    List.contains_iff_mem, h.own, List.map_append, List.map_append, List.mem_append,
    List.mem_append, h.names, or_iff_right hnumbers, not_or]
  refine and_congr_right fun _ => ?_
  constructor
  · intro hkept htag
    by_contra hmoved
    exact hkept ⟨htag, by decide, hmoved⟩
  · rintro hmoved ⟨htag, -, hne⟩
    exact hne (hmoved htag)

theorem Laid.start (attr : List (Str × Value)) : Laid attr [] ⟨attr, []⟩ [] [] [] where
  own := (List.append_nil attr).symm
  inherited := rfl
  perm := .nil
  again := by simp
  proto := by simp
  names := by simp
  nodup := .nil
  parts := fun _ _ => rfl
  same := fun _ _ => rfl

/-- The document, whose attributes are left out. -/
def Element.bare (document : Element) : Element := { document with attr := [] }

/-- The tags of the children. -/
def Element.tags (e : Element) : List Str := e.children.map (·.name.text)

mutual

/-- An element and those below it. -/
def Element.elements : Element → List Element
  | ⟨name, attr, children⟩ => ⟨name, attr, children⟩ :: elementsOf children

def elementsOf : List Element → List Element
  | [] => []
  | e :: es => e.elements ++ elementsOf es

end

/-- No attribute is named like a child. -/
def Element.Distinct (e : Element) : Prop :=
  ∀ tag ∈ e.tags, tag ∉ e.attr.map (·.1.text)

/-- A loop over the object that is made of an element visits the objects of its children, in their
order when they have the same tag, and the object carries the attributes. -/
def Element.Reads (e : Element) (made : Option (Properties Value)) : Prop :=
  ∃ obj items values, made = some obj ∧ e.children.mapM Element.item = some items ∧
    eachObject obj = some values ∧ values.Perm (items.map Prod.snd) ∧
    ((∀ tag ∈ e.tags, ∀ other ∈ e.tags, tag = other) → values = items.map Prod.snd) ∧
    ∀ a ∈ e.attr, (a.1.text, .string a.2) ∈ obj.own

/-- No child of the document or of an element below it is lost. -/
def Lossless (document : Element) : Prop :=
  document.bare.Reads (xml2Json document) ∧
    ∀ child ∈ document.children, ∀ e ∈ child.elements, e.Reads e.object

/-- The tags and the attributes of an element leave `hasOwnProperty` and `__proto__` alone, and
those that are keys of its object do not read as numbers. -/
structure Element.Plain (e : Element) : Prop where
  proto : "__proto__".toList ∉ e.tags
  attr : e.tags ≠ [] → "hasOwnProperty".toList ∉ e.attr.map (·.1.text)
  tags : "hasOwnProperty".toList ∉ e.tags.dropLast
  kept : ∀ tag ∈ e.tags, moved e.tags ≠ some tag → (parseInt tag).isSome = false
  texts : ∀ a ∈ e.attr, (parseInt a.1.text).isSome → a.2 = []

/-- The children with a tag that are put under numbers: all but the first, or all when the last
child has the tag as well. -/
def Element.numbered (e : Element) (tag : Str) : List Element :=
  (e.children.filter (·.name.text = tag)).drop (if moved e.tags = some tag then 0 else 1)

/-- The object of an element has no key `toString`. -/
def Element.Printable (e : Element) : Prop :=
  "toString".toList ∉ e.attr.map (·.1.text) ∧
    ("toString".toList ∈ e.tags → moved e.tags = some "toString".toList)

/-- A plain element of which no child stops the loop as a `length` that is no number. -/
structure Element.Fits (e : Element) : Prop extends Element.Plain e where
  lengths : ∀ child ∈ e.numbered "length".toList, child.Printable

/-- A document, in which the children of each element are an array. -/
structure Document where
  root : Element
  bounded : ∀ e ∈ root.elements, e.children.length < 2 ^ 32

section Items

variable {e : Element} {items : List (Str × Value)}

theorem items_tags (h : e.children.mapM Element.item = some items) :
    items.map Prod.fst = e.tags := by
  rw [mapM_eq_some] at h
  rw [Element.tags, eq_comm, ← List.forall₂_eq_eq_eq, List.forall₂_map_left_iff,
    List.forall₂_map_right_iff]
  refine h.imp fun child item hitem => ?_
  obtain ⟨obj, -, rfl⟩ := Option.map_eq_some_iff.mp hitem
  rfl

theorem items_object (h : e.children.mapM Element.item = some items) :
    ∀ item ∈ items, item.2.isObject := by
  rw [mapM_eq_some] at h
  generalize e.children = children at h
  induction h with
  | nil => simp
  | cons hitem _ ih =>
    obtain ⟨obj, -, rfl⟩ := Option.map_eq_some_iff.mp hitem
    exact List.forall_mem_cons.mpr ⟨rfl, ih⟩

theorem record_keys (attr : List (Name × Str)) :
    (record attr).own.map Prod.fst = attr.map (·.1.text) := by
  simp [record]

theorem record_named (attr : List (Name × Str)) : ∀ a ∈ (record attr).own, Named a.1 := by
  intro a ha
  obtain ⟨⟨name, text⟩, -, rfl⟩ := List.mem_map.mp ha
  exact name.named

theorem record_strings (attr : List (Name × Str)) :
    ∀ a ∈ (record attr).own, ∃ s, a.2 = .string s := by
  intro a ha
  obtain ⟨⟨name, text⟩, -, rfl⟩ := List.mem_map.mp ha
  exact ⟨text, rfl⟩

theorem items_child (hdistinct : e.Distinct) (h : e.children.mapM Element.item = some items) :
    ∀ item ∈ items, Child (record e.attr).own item := by
  intro item hitem
  have htag : item.1 ∈ e.tags := by
    rw [← items_tags h]
    exact List.mem_map_of_mem hitem
  obtain ⟨child, -, hname⟩ := List.mem_map.mp htag
  refine ⟨hname ▸ child.name.named, ?_, items_object h item hitem⟩
  rw [record_keys]
  exact hdistinct _ htag

theorem object_eq (h : e.children.mapM Element.item = some items) :
    e.object = storeAll items.length 0 (record e.attr) items := by
  have hlength : e.children.length = items.length := by
    have := congrArg List.length (items_tags h)
    simpa [Element.tags] using this.symm
  rw [Element.object, ← hlength, ← eachChild_eq h]
  cases e
  rw [recurse]

theorem items_length (h : e.children.mapM Element.item = some items) :
    items.length = e.children.length := by
  have hlength := congrArg List.length (items_tags h)
  rwa [List.length_map, Element.tags, List.length_map] at hlength

/-- The object of an element, when it is made. -/
theorem object_laid (hdistinct : e.Distinct) (hbound : e.children.length < 2 ^ 32)
    (h : e.children.mapM Element.item = some items) {obj : Properties Value}
    (hobject : e.object = some obj) :
    (e.tags ≠ [] → "hasOwnProperty".toList ∉ e.attr.map (·.1.text)) ∧
      "hasOwnProperty".toList ∉ e.tags.dropLast ∧
      ∃ repeats kept protos, Laid (record e.attr).own items obj repeats kept protos := by
  have hchild := items_child hdistinct h
  have htags := items_tags h
  rw [object_eq h] at hobject
  rw [← items_length h] at hbound
  rcases List.eq_nil_or_concat' items with rfl | ⟨init, last, rfl⟩
  · obtain rfl := Option.some.inj hobject
    rw [← htags]
    exact ⟨by simp, by simp, [], [], [], Laid.start _⟩
  · rw [List.length_append, List.length_singleton, ← Nat.zero_add init.length] at hobject hbound
    obtain ⟨hclear, hlaid⟩ :=
      storeAll_laid (Stored.start _) (record_named e.attr) hchild hbound hobject
    rw [List.nil_append] at hclear hlaid
    rw [← htags, List.map_append, List.map_singleton, List.dropLast_concat, ← record_keys]
    exact ⟨fun _ => hclear.1, hclear.2, hlaid⟩

/-- The object of an element is made when nothing hides `hasOwnProperty`. -/
theorem object_made (hdistinct : e.Distinct) (hbound : e.children.length < 2 ^ 32)
    (h : e.children.mapM Element.item = some items) (hplain : e.Plain) :
    ∃ obj, e.object = some obj := by
  have hchild := items_child hdistinct h
  have htags := items_tags h
  rw [object_eq h]
  rw [← items_length h] at hbound
  rcases List.eq_nil_or_concat' items with rfl | ⟨init, last, rfl⟩
  · exact ⟨_, rfl⟩
  · have hne : e.tags ≠ [] := by
      rw [← htags]
      simp
    have hlast := hplain.tags
    have hproto := hplain.proto
    rw [← htags, List.map_append, List.map_singleton] at hlast hproto
    rw [List.dropLast_concat] at hlast
    rw [List.length_append, List.length_singleton, ← Nat.zero_add init.length] at hbound ⊢
    refine storeAll_some (Stored.start _) (record_named e.attr) hchild hbound ?_ ?_
    · refine ⟨?_, hlast⟩
      show _ ∉ (record e.attr).own.map Prod.fst
      rw [record_keys]
      exact hplain.attr hne
    · intro other hother heq
      apply hproto
      rw [← heq]
      exact List.mem_append_left _ (List.mem_map_of_mem hother)

/-- The object of a plain element has no prototype and no key that reads as a number. -/
theorem plain_laid (hdistinct : e.Distinct) (hbound : e.children.length < 2 ^ 32)
    (h : e.children.mapM Element.item = some items) (hplain : e.Plain) {obj : Properties Value}
    (hobject : e.object = some obj) :
    ∃ repeats kept, Laid (record e.attr).own items obj repeats kept [] ∧
      ∀ k ∈ kept, (parseInt k.1).isSome = false := by
  obtain ⟨-, -, repeats, kept, protos, hlaid⟩ := object_laid hdistinct hbound h hobject
  have hproto := hplain.proto
  have hkept := hplain.kept
  rw [← items_tags h] at hproto hkept
  obtain rfl := hlaid.protos_iff.mpr hproto
  exact ⟨repeats, kept, hlaid, (hlaid.plain_iff hproto).mpr hkept⟩

/-- A loop over the object of an element reads its children when the element is plain and nothing
stops the loop. -/
theorem reads_iff (hdistinct : e.Distinct) (hbound : e.children.length < 2 ^ 32)
    (h : e.children.mapM Element.item = some items) :
    e.Reads e.object ↔ e.Plain ∧ ∀ obj, e.object = some obj → Quiet obj := by
  have htags := items_tags h
  have hobjects := items_object h
  have htexts : (∀ a ∈ (record e.attr).own, a.2.shown a.1 = []) ↔
      ∀ a ∈ e.attr, (parseInt a.1.text).isSome → a.2 = [] := by
    rw [record, List.forall_mem_map]
    refine forall₂_congr fun a _ => ?_
    show (Value.string a.2).shown a.1.text = [] ↔ _
    rw [Value.shown]
    cases (parseInt a.1.text).isSome <;> simp [Value.first, Value.isObject]
  constructor
  · rintro ⟨obj, items', values, hobject, hitems', hvalues, hperm, -, -⟩
    obtain rfl : items' = items := by
      rw [h] at hitems'
      exact (Option.some.inj hitems').symm
    obtain ⟨hquiet, rfl⟩ := eachObject_iff.mp hvalues
    obtain ⟨hattr, hlast, repeats, kept, protos, hlaid⟩ := object_laid hdistinct hbound h hobject
    obtain ⟨hprotos, hkept, hunread⟩ :=
      (hlaid.perm_iff (record_strings e.attr) hobjects).mp hperm
    have hproto := hlaid.protos_iff.mp hprotos
    rw [hlaid.plain_iff hproto] at hkept
    rw [htags] at hproto hkept
    refine ⟨⟨hproto, hattr, hlast, hkept, htexts.mp hunread⟩, fun obj' hobj' => ?_⟩
    obtain rfl := Option.some.inj (hobject.symm.trans hobj')
    exact hquiet
  · rintro ⟨hplain, hquiet⟩
    obtain ⟨obj, hobject⟩ := object_made hdistinct hbound h hplain
    obtain ⟨repeats, kept, hlaid, hkept⟩ := plain_laid hdistinct hbound h hplain hobject
    have hunread := htexts.mpr hplain.texts
    refine ⟨obj, items, seen obj, hobject, h, eachObject_iff.mpr ⟨hquiet obj hobject, rfl⟩,
      (hlaid.perm_iff (record_strings e.attr) hobjects).mpr ⟨rfl, hkept, hunread⟩, ?_, ?_⟩
    · intro hsame
      rw [hlaid.seen_eq hobjects rfl hkept hunread, ← hlaid.same ?_ rfl]
      intro a ha b hb
      rw [← htags] at hsame
      exact hsame _ (List.mem_map_of_mem ha) _ (List.mem_map_of_mem hb)
    · intro a ha
      rw [hlaid.own]
      apply List.mem_append_right
      apply List.mem_append_left
      exact List.mem_map.mpr ⟨a, ha, rfl⟩

theorem printable_iff (hdistinct : e.Distinct) (hbound : e.children.length < 2 ^ 32)
    (h : e.children.mapM Element.item = some items) (hplain : e.Plain) {obj : Properties Value}
    (hobject : e.object = some obj) :
    (Value.ofProperties obj).unprintable = false ↔ e.Printable := by
  obtain ⟨repeats, kept, hlaid, -⟩ := plain_laid hdistinct hbound h hplain hobject
  rw [hlaid.unprintable_iff rfl, record_keys, items_tags h]
  rfl

/-- Nothing stops the loop over the object of a plain element when the children tagged `length` that
are under numbers have strings. -/
theorem quiet_iff (hdistinct : e.Distinct) (hbound : e.children.length < 2 ^ 32)
    (h : e.children.mapM Element.item = some items) (hplain : e.Plain)
    (hchildren : ∀ child ∈ e.children, ∀ obj, child.object = some obj →
      ((Value.ofProperties obj).unprintable = false ↔ child.Printable))
    {obj : Properties Value} (hobject : e.object = some obj) :
    Quiet obj ↔ ∀ child ∈ e.numbered "length".toList, child.Printable := by
  obtain ⟨repeats, kept, hlaid, hkept⟩ := plain_laid hdistinct hbound h hplain hobject
  have hitems : List.Forall₂ (fun child item => child.item = some item)
      (e.numbered "length".toList)
      ((repeats.map Prod.snd).filter (·.1 = "length".toList)) := by
    rw [hlaid.numbered (by decide), items_tags h, Element.numbered]
    apply List.forall₂_drop
    apply List.rel_filter ?_ (mapM_eq_some.mp h)
    intro child item hitem
    obtain ⟨obj, -, rfl⟩ := Option.map_eq_some_iff.mp hitem
    exact Iff.rfl
  rw [hlaid.quiet_iff rfl (record_strings e.attr) hkept]
  have hmem : ∀ child ∈ e.numbered "length".toList, child ∈ e.children := fun child hchild =>
    List.mem_of_mem_filter (List.mem_of_mem_drop hchild)
  generalize e.numbered "length".toList = children at hitems hmem
  generalize (repeats.map Prod.snd).filter _ = numbered at hitems
  induction hitems with
  | nil => simp
  | cons hitem _ ih =>
    rw [List.forall_mem_cons] at hmem
    obtain ⟨obj', hobj', rfl⟩ := Option.map_eq_some_iff.mp hitem
    rw [List.forall_mem_cons, List.forall_mem_cons]
    exact and_congr (hchildren _ hmem.1 obj' hobj') (ih hmem.2)

end Items

theorem mem_elementsOf {e : Element} {children : List Element} :
    e ∈ elementsOf children ↔ ∃ child ∈ children, e ∈ child.elements := by
  induction children with
  | nil => simp [elementsOf]
  | cons child children ih => simp [elementsOf, ih]

theorem mem_elements {e parent : Element} :
    e ∈ parent.elements ↔ e = parent ∨ ∃ child ∈ parent.children, e ∈ child.elements := by
  cases parent
  rw [Element.elements, List.mem_cons, mem_elementsOf]

theorem sizeOf_child {e child : Element} (h : child ∈ e.children) : sizeOf child < sizeOf e := by
  cases e with
  | mk name attr children =>
    have hlt : sizeOf child < sizeOf children := List.sizeOf_lt_of_mem h
    rw [Element.mk.sizeOf_spec]
    omega

theorem elements_trans (parent : Element) {e below : Element} (he : e ∈ parent.elements)
    (hbelow : below ∈ e.elements) : below ∈ parent.elements := by
  rcases mem_elements.mp he with rfl | ⟨child, hchild, he⟩
  · exact hbelow
  · exact mem_elements.mpr (.inr ⟨child, hchild, elements_trans child he hbelow⟩)
termination_by sizeOf parent
decreasing_by exact sizeOf_child hchild

/-- An element below which all are plain has objects for its children. -/
theorem items_made (e : Element) (h : ∀ child ∈ e.children, ∀ below ∈ child.elements,
      below.Distinct ∧ below.children.length < 2 ^ 32 ∧ below.Plain) :
    ∃ items, e.children.mapM Element.item = some items := by
  rw [← Option.isSome_iff_exists, isSome_mapM]
  intro child hchild
  obtain ⟨items, hitems⟩ := items_made child fun grandchild hgrandchild below hbelow =>
    h child hchild below (mem_elements.mpr (.inr ⟨grandchild, hgrandchild, hbelow⟩))
  obtain ⟨hdistinct, hbound, hplain⟩ := h child hchild child (mem_elements.mpr (.inl rfl))
  obtain ⟨obj, hobject⟩ := object_made hdistinct hbound hitems hplain
  rw [Element.item, hobject]
  rfl
termination_by sizeOf e
decreasing_by exact sizeOf_child hchild

theorem xml2Json_eq (document : Element) : xml2Json document = document.bare.object := by
  cases document
  rw [xml2Json, Element.object, Element.bare, recurse, recurse]
  rfl

theorem lossless_elements (document : Element) :
    Lossless document ↔ ∀ e ∈ document.bare.elements, e.Reads e.object := by
  rw [Lossless, xml2Json_eq]
  constructor
  · rintro ⟨hdocument, hbelow⟩ e he
    rcases mem_elements.mp he with rfl | ⟨child, hchild, he⟩
    · exact hdocument
    · exact hbelow child hchild e he
  · intro hreads
    exact ⟨hreads _ (mem_elements.mpr (.inl rfl)), fun child hchild e he =>
      hreads e (mem_elements.mpr (.inr ⟨child, hchild, he⟩))⟩

theorem Document.bare_bounded (document : Document) :
    ∀ e ∈ document.root.bare.elements, e.children.length < 2 ^ 32 := by
  intro e he
  rcases mem_elements.mp he with rfl | hbelow
  · exact document.bounded document.root (mem_elements.mpr (.inl rfl))
  · exact document.bounded e (mem_elements.mpr (.inr hbelow))

/-- Where all elements are plain, a child has a string as its tags and attributes say. -/
theorem child_printable {parent e child : Element} (hchild : child ∈ e.children)
    (he : e ∈ parent.elements) (h : ∀ below ∈ parent.elements,
      below.Distinct ∧ below.children.length < 2 ^ 32 ∧ below.Plain)
    {obj : Properties Value} (hobject : child.object = some obj) :
    (Value.ofProperties obj).unprintable = false ↔ child.Printable := by
  have hbelow : ∀ below ∈ child.elements, below ∈ parent.elements := fun below hbelow =>
    elements_trans parent he (mem_elements.mpr (.inr ⟨child, hchild, hbelow⟩))
  obtain ⟨hdistinct, hbound, hplain⟩ := h child (hbelow child (mem_elements.mpr (.inl rfl)))
  obtain ⟨items, hitems⟩ := items_made child fun grandchild hgrandchild below hmem =>
    h below (hbelow below (mem_elements.mpr (.inr ⟨grandchild, hgrandchild, hmem⟩)))
  exact printable_iff hdistinct hbound hitems hplain hobject

/-- `Xml2Json` loses no element exactly when all elements fit. -/
theorem lossless_iff (document : Document) (h : ∀ e ∈ document.root.bare.elements, e.Distinct) :
    Lossless document.root ↔ ∀ e ∈ document.root.bare.elements, e.Fits := by
  have hbound := document.bare_bounded
  rw [lossless_elements]
  generalize document.root.bare = root at h hbound
  constructor
  · intro hreads
    have hplain : ∀ e ∈ root.elements, e.Plain := by
      intro e he
      obtain ⟨obj, items, values, -, hitems, -⟩ := hreads e he
      exact ((reads_iff (h e he) (hbound e he) hitems).mp (hreads e he)).1
    intro e he
    obtain ⟨obj, items, values, hobject, hitems, -⟩ := hreads e he
    have hquiet := ((reads_iff (h e he) (hbound e he) hitems).mp (hreads e he)).2 obj hobject
    refine ⟨hplain e he, ?_⟩
    exact (quiet_iff (h e he) (hbound e he) hitems (hplain e he) (fun child hchild obj hobj =>
      child_printable hchild he (fun below hbelow =>
        ⟨h below hbelow, hbound below hbelow, hplain below hbelow⟩) hobj) hobject).mp hquiet
  · intro hfits e he
    have hall : ∀ below ∈ root.elements,
        below.Distinct ∧ below.children.length < 2 ^ 32 ∧ below.Plain := fun below hbelow =>
      ⟨h below hbelow, hbound below hbelow, (hfits below hbelow).toPlain⟩
    obtain ⟨items, hitems⟩ := items_made e fun child hchild below hbelow =>
      hall below (elements_trans root he (mem_elements.mpr (.inr ⟨child, hchild, hbelow⟩)))
    refine (reads_iff (h e he) (hbound e he) hitems).mpr ⟨(hfits e he).toPlain, ?_⟩
    intro obj hobject
    exact (quiet_iff (h e he) (hbound e he) hitems (hfits e he).toPlain
      (fun child hchild obj hobj => child_printable hchild he hall hobj) hobject).mpr
        (hfits e he).lengths

/-- The slots of an appearance. -/
def slots : Document where
  root := ⟨⟨"slots".toList, rfl⟩, [],
    [⟨⟨"slot".toList, rfl⟩, [(⟨"name".toList, rfl⟩, "Head".toList)], []⟩,
      ⟨⟨"slot".toList, rfl⟩, [(⟨"name".toList, rfl⟩, "Top".toList)], []⟩]⟩
  bounded := by decide

/-- Every element fits, so that none is lost. -/
theorem slots_lossless : Lossless slots.root := by
  refine (lossless_iff slots ?_).mpr ?_
  · unfold Element.Distinct
    decide
  · intro e he
    have hmem : e = slots.root.bare ∨ e ∈ slots.root.children := by
      simpa [slots, Element.bare, Element.elements, elementsOf] using he
    have hnone : ∀ child : Element, child ∈ [] → child.Printable :=
      List.forall_mem_nil _
    rcases hmem with rfl | hmem
    · exact ⟨⟨by decide, by decide, by decide, by decide, by decide⟩, hnone⟩
    · simp only [slots, List.mem_cons, List.not_mem_nil, or_false] at hmem
      rcases hmem with rfl | rfl
      · exact ⟨⟨by decide, by decide, by decide, by decide, by decide⟩, hnone⟩
      · exact ⟨⟨by decide, by decide, by decide, by decide, by decide⟩, hnone⟩

/-- An element that hides the function before the next one is stored. -/
def shadowing : Document where
  root := ⟨⟨"slots".toList, rfl⟩, [],
    [⟨⟨"hasOwnProperty".toList, rfl⟩, [], []⟩, ⟨⟨"slot".toList, rfl⟩, [], []⟩]⟩
  bounded := by decide

/-- `Xml2Json` throws for it. -/
theorem shadowing_lost :
    (∀ e ∈ shadowing.root.bare.elements, e.Distinct) ∧ ¬Lossless shadowing.root := by
  constructor
  · unfold Element.Distinct
    decide
  · rintro ⟨⟨obj, items, values, hobject, -⟩, -⟩
    have hthrown : xml2Json shadowing.root = none := by
      rfl
    rw [hthrown] at hobject
    cases hobject

end Starfall.Xml2Json
