import Starfall.Script.Equipment

/-! Which files of items an inventory can be constructed from.  `load` looks for the class of a type
that is not registered in the row that it did not find, and one such item stops the script. -/

namespace Starfall.Script

open Components (Value Numbers)
open ProofKit.Admission ProofKit.Folds

variable {N : Type} (num : Numbers N) (defaults : List Str)

/-- The items without their states. -/
def undressed (items : List (Item N)) : List (Item N) := items.map fun item => item.dress false

theorem undressed_modify (items : List (Item N)) (i : Nat) :
    undressed (items.modify i fun item => { item with equipped := true }) = undressed items := by
  apply List.ext_getElem?
  intro j
  rw [undressed, undressed, List.getElem?_map, List.getElem?_map, List.getElem?_modify]
  by_cases h : i = j
  · subst h
    cases items[i]? <;> simp [Item.dress]
  · simp [h]

/-- The item at the same place, which differs at most in its state. -/
theorem exists_undressed {items others : List (Item N)} {item : Item N} {i : Nat}
    (h : undressed others = undressed items) (hitem : items[i]? = some item) :
    ∃ other, others[i]? = some other ∧ other.dress false = item.dress false := by
  have hat : (undressed others)[i]? = some (item.dress false) := by
    rw [h, undressed, List.getElem?_map, hitem]
    rfl
  rw [undressed, List.getElem?_map] at hat
  exact Option.map_eq_some_iff.mp hat

theorem slots_undressed {item other : Item N} (h : other.dress false = item.dress false) :
    other.slots num = item.slots num := by
  rw [← dress_slots num other false, h, dress_slots]

/-- An item that `equip` does not throw for, whose slots can be read then. -/
theorem equip_some {items others : List (Item N)} {item : Item N} {i : Nat}
    (h : equip num defaults i items = some others) (hitem : items[i]? = some item) :
    undressed others = undressed items ∧ (item.slots num).isSome := by
  rw [equip, hitem] at h
  obtain ⟨slotNames, hnames, hfold⟩ := Option.bind_eq_some_iff.mp h
  have hstep : ∀ slotName ∈ slotNames, ∀ before after, undressed before = undressed items → (do
      let states ← equipped num defaults before
      let name ← slotName.toText num
      some (if states.truthy name then before
        else before.modify i fun item => { item with equipped := true })) = some after →
      undressed after = undressed items ∧ (item.slots num).isSome := by
    intro slotName _ before after hbefore hafter
    obtain ⟨states, hstates, hafter⟩ := Option.bind_eq_some_iff.mp hafter
    obtain ⟨name, hname, hafter⟩ := Option.bind_eq_some_iff.mp hafter
    obtain rfl := Option.some.inj hafter
    constructor
    · split
      · exact hbefore
      · rw [undressed_modify, hbefore]
    · obtain ⟨other, hother, hsame⟩ := exists_undressed hbefore hitem
      rw [← slots_undressed num hsame]
      exact isSome_slots num defaults hstates (List.mem_of_getElem? hother)
  obtain ⟨hkept, hshown⟩ := foldlM_run hstep rfl hfold
  refine ⟨hkept, ?_⟩
  cases slotNames with
  | nil =>
    have hnone : names num (item.get "data".toList) = some [] := hnames
    rw [Item.slots, slotNames, hnone]
    rfl
  | cons slotName rest => exact hshown slotName List.mem_cons_self

/-- A pass that does not throw has read the slots of every item. -/
theorem findEquipment_some {items others : List (Item N)}
    (h : findEquipment num defaults items = some others)
    (htype : ∀ item ∈ items, isText (item.get "type".toList) "apparel".toList) :
    ∀ item ∈ items, (item.slots num).isSome := by
  have hstep : ∀ i ∈ List.range items.length, ∀ before after, undressed before = undressed items →
      equipAt num defaults before i = some after → undressed after = undressed items ∧
        ∀ item, items[i]? = some item → (item.slots num).isSome := by
    intro i hi before after hbefore hafter
    have hlt : i < items.length := List.mem_range.mp hi
    have hitem := List.getElem?_eq_getElem hlt
    obtain ⟨other, hother, hsame⟩ := exists_undressed hbefore hitem
    have hget : other.get "type".toList = items[i].get "type".toList := by
      rw [← dress_get _ false, hsame, dress_get]
    have htext := htype _ (List.mem_of_getElem? hitem)
    rw [← hget] at htext
    rw [equipAt, hother] at hafter
    obtain ⟨hkept, hslots⟩ := equip_some num defaults ((if_pos htext).symm.trans hafter) hother
    refine ⟨hkept.trans hbefore, fun item h => ?_⟩
    obtain rfl := Option.some.inj (hitem.symm.trans h)
    rw [← slots_undressed num hsame]
    exact hslots
  intro item hitem
  obtain ⟨i, hi⟩ := List.getElem?_of_mem hitem
  have hlt : i < items.length := (List.getElem?_eq_some_iff.mp hi).1
  exact (foldlM_run hstep rfl h).2 i (List.mem_range.mpr hlt) item hi

/-- An entry that is left out as it has no type, or one of an apparel item whose slots can be read
and whose fields are all set. -/
def Harmless (entry : Value N) : Prop :=
  has (some entry) "type".toList = some none ∨
    (registered entry ∧ (slotNames num (has (some entry) "data".toList).join).isSome ∧
      "__proto__".toList ∉ entry.properties.map Prod.fst)

/-- An item with the fields of an entry, except that `states` is its own. -/
def Carries (entry : Value N) (item : Item N) : Prop :=
  item.fields = entry.properties.filter fun property => property.1 ≠ "states".toList

theorem carries_apparel {entry : Value N} :
    Carries entry (Apparel entry) ↔ "__proto__".toList ∉ entry.properties.map Prod.fst := by
  rw [Carries, Apparel]
  constructor
  · intro h hmem
    obtain ⟨property, hproperty, hname⟩ := List.mem_map.mp hmem
    have hkept : property ∈ entry.properties.filter fun p => p.1 ≠ "states".toList := by
      rw [List.mem_filter, hname]
      exact ⟨hproperty, by decide⟩
    rw [← h, List.mem_filter] at hkept
    exact (of_decide_eq_true hkept.2).2 hname
  · intro h
    apply List.filter_congr
    intro property hproperty
    have hname : property.1 ≠ "__proto__".toList := by
      intro hname
      exact h (List.mem_map.mpr ⟨property, hproperty, hname⟩)
    rw [decide_eq_decide]
    exact and_iff_left hname

theorem carries_dressed {entries : List (Value N)} {ds : List (Item N × Bool)}
    (h : ds.map Prod.fst = entries.map Apparel) :
    List.Forall₂ Carries entries (dressed ds) ↔
      ∀ entry ∈ entries, Carries entry (Apparel entry) := by
  induction entries generalizing ds with
  | nil =>
    obtain rfl := List.map_eq_nil_iff.mp h
    simp [dressed]
  | cons entry entries ih =>
    obtain ⟨d, rest, rfl, hd, hrest⟩ := List.map_eq_cons_iff.mp h
    show List.Forall₂ Carries _ (d.1.dress d.2 :: dressed rest) ↔ _
    rw [List.forall₂_cons, ih hrest, List.forall_mem_cons, hd]
    rfl

/-- The slots of an item whose prototype is left as it was. -/
theorem slots_apparel {entry : Value N} (h : registered entry)
    (hproto : "__proto__".toList ∉ entry.properties.map Prod.fst) :
    (Apparel entry).slots num = slotNames num (has (some entry) "data".toList).join := by
  cases entry with
  | object properties =>
    have hnone : properties.lookup "__proto__".toList = none := by
      rw [List.lookup_eq_none_iff]
      intro property hproperty
      rw [bne_iff_ne]
      intro hname
      exact hproto (List.mem_map.mpr ⟨property, hproperty, hname.symm⟩)
    have hinherited : (Apparel (.object properties)).proto = none := by
      show (properties.lookup _).filter _ = none
      rw [hnone]
      rfl
    rw [Item.slots, Item.get, lookup_fields properties (by decide) (by decide), hinherited]
    show slotNames num (properties.lookup _ <|> none) = slotNames num (properties.lookup _)
    cases properties.lookup "data".toList <;> rfl
  | _ => simp [registered, has, isText] at h

/-- The constructor does not throw, and leaves an item for each entry of a type that is registered,
in their order, exactly when every entry is harmless. -/
theorem constructs_iff (entries : List (Value N)) :
    (∃ items, construct num defaults (.array entries) = some items ∧
      List.Forall₂ Carries (entries.filter registered) items) ↔
      ∀ entry ∈ entries, Harmless num entry := by
  constructor
  · rintro ⟨items, hitems, hcarries⟩ entry hentry
    obtain ⟨loaded, hload, hfind⟩ := Option.bind_eq_some_iff.mp hitems
    obtain ⟨found, hfound, -⟩ := Option.bind_eq_some_iff.mp hload
    have hloads : ∀ entry ∈ entries, (loadItem entry).isSome :=
      isSome_mapM.mp (Option.isSome_of_eq_some hfound)
    obtain rfl := Option.some.inj ((load_eq hloads).symm.trans hload)
    have htype : ∀ item ∈ (entries.filter registered).map Apparel,
        isText (item.get "type".toList) "apparel".toList := by
      intro item hitem
      obtain ⟨other, hother, rfl⟩ := List.mem_map.mp hitem
      exact type_apparel (List.mem_filter.mp hother).2
    have hslots := findEquipment_some num defaults hfind htype
    have hfresh : ∀ item ∈ (entries.filter registered).map Apparel, item.Fresh num := by
      intro item hitem
      obtain ⟨other, hother, rfl⟩ := List.mem_map.mp hitem
      exact fresh_apparel num (List.mem_filter.mp hother).2 (hslots _ hitem)
    rw [findEquipment_eq num defaults hfresh] at hfind
    obtain rfl := Option.some.inj hfind
    have hcarried := (carries_dressed (decisions_fst _ _)).mp hcarries
    apply (loadItem_iff.mp (hloads entry hentry)).imp_right
    intro hregistered
    have hmem := List.mem_filter.mpr ⟨hentry, hregistered⟩
    have hproto := carries_apparel.mp (hcarried entry hmem)
    rw [← slots_apparel num hregistered hproto]
    exact ⟨hregistered, hslots _ (List.mem_map_of_mem hmem), hproto⟩
  · intro h
    have hregistered : ∀ entry ∈ entries.filter registered, registered entry ∧
        ((Apparel entry).slots num).isSome ∧
          "__proto__".toList ∉ entry.properties.map Prod.fst := by
      intro entry hentry
      obtain ⟨hmem, hregistered⟩ := List.mem_filter.mp hentry
      rcases h entry hmem with huntyped | ⟨-, hslots, hproto⟩
      · rw [registered, huntyped] at hregistered
        cases hregistered
      · rw [slots_apparel num hregistered hproto]
        exact ⟨hregistered, hslots, hproto⟩
    have hfresh : ∀ item ∈ (entries.filter registered).map Apparel, item.Fresh num := by
      intro item hitem
      obtain ⟨entry, hentry, rfl⟩ := List.mem_map.mp hitem
      obtain ⟨hregistered, hslots, -⟩ := hregistered entry hentry
      exact fresh_apparel num hregistered hslots
    have hload := load_eq fun entry hentry =>
      loadItem_iff.mpr ((h entry hentry).imp_right And.left)
    refine ⟨_, ?_, (carries_dressed (decisions_fst (admitsItem num defaults) _)).mpr
      fun entry hentry => carries_apparel.mpr (hregistered entry hentry).2.2⟩
    rw [construct, hload]
    exact findEquipment_eq num defaults hfresh

/-- A rock without a type in front of a helmet. -/
theorem rockAndHelmet_load :
    ∃ items, construct Components.integers ["Head".toList]
      (.array [.object [("name".toList, .string "Rock".toList)], apparel [slot "Head".toList]]) =
        some items ∧
      List.Forall₂ Carries ([.object [("name".toList, .string "Rock".toList)],
        apparel [slot "Head".toList]].filter registered) items := by
  refine (constructs_iff Components.integers _ _).mpr ?_
  rw [List.forall_mem_cons, List.forall_mem_singleton]
  exact ⟨.inl rfl, .inr ⟨by decide +kernel, by decide +kernel, by decide +kernel⟩⟩

/-- A weapon in front of a helmet. -/
theorem weaponAndHelmet_throw :
    ¬∃ items, construct Components.integers ["Head".toList]
      (.array [.object [("type".toList, .string "weapon".toList)], apparel [slot "Head".toList]]) =
        some items ∧
      List.Forall₂ Carries ([.object [("type".toList, .string "weapon".toList)],
        apparel [slot "Head".toList]].filter registered) items := by
  rintro ⟨items, hitems, -⟩
  have hthrows : (construct Components.integers ["Head".toList]
      (.array [.object [("type".toList, .string "weapon".toList)],
        apparel [slot "Head".toList]])).isNone := by
    decide +kernel
  rw [hitems] at hthrows
  cases hthrows

end Starfall.Script
