import Mathlib.Data.List.Induction
import Mathlib.Data.List.ReduceOption
import Starfall.ProofKit.Folds
import Starfall.Web.Values

/-! `Plugins/Script`: the slots of an appearance, the items of an inventory, and the pass that
equips them.  A function that throws returns `none`. -/

namespace Starfall.Script

open Components (Value Numbers eachObject)
open ProofKit.Folds

abbrev Str := Components.Str

variable {N : Type} (num : Numbers N)

/-! ### Appearances -/

/-- `_.has(value, name)` with the property that it finds, for a name that is neither an index nor
`length`.  It throws where `value` is undefined or `null`. -/
def has (value : Option (Value N)) (name : Str) : Option (Option (Value N)) :=
  match value with
  | none | some .null => none
  | some (.object properties) => some (properties.lookup name)
  | some _ => some none

/-- `Appearance.slots.names` -/
def names (obj : Option (Value N)) : Option (List (Value N)) := do
  match ← has obj "slots".toList with
  | none => some []
  | some slots =>
    let slotNames ← (← eachObject num (some slots)).mapM fun slot => has slot "name".toList
    some slotNames.reduceOption

/-! ### Items -/

/-- An object of `Items.Apparel`: its fields other than `states`, what its prototype was set to, and
`states.equipped`. -/
structure Item (N : Type) where
  fields : List (Str × Value N)
  proto : Option (Value N)
  equipped : Bool

/-- The constructor.  `_.extend` sets one property after the other, where setting `__proto__` makes
an object the prototype and does nothing with any other value. -/
def Apparel (obj : Value N) : Item N where
  fields := obj.properties.filter fun p => p.1 ≠ "states".toList ∧ p.1 ≠ "__proto__".toList
  proto := (obj.properties.lookup "__proto__".toList).filter Value.isObject
  equipped := false

/-- A property of an item, its own or one that it inherits. -/
def Item.get (item : Item N) (name : Str) : Option (Value N) :=
  item.fields.lookup name <|> (item.proto.elim [] Value.properties).lookup name

/-- `value === text` -/
def isText (value : Option (Value N)) (text : Str) : Bool :=
  match value with
  | some (.string s) => s = text
  | _ => false

/-- A row of `Inventory.types`, of which `class` may be undefined. -/
structure ItemType (N : Type) where
  type : Str
  classFunction : Option (Value N → Item N)

def types : List (ItemType N) := [⟨"apparel".toList, some Apparel⟩]

/-- `_.findWhere`, which finds nothing for a type that is not registered. -/
def findWhere (type : Value N) : Option (ItemType N) :=
  types.find? fun row => isText (some type) row.type

/-- What `load` does with one item.  Reading `class` throws when no type was found. -/
def loadItem (item : Value N) : Option (Option (Item N)) := do
  match ← has (some item) "type".toList with
  | none => some none
  | some type =>
    let row ← findWhere type
    match row.classFunction with
    | none => some none
    | some classFunction => some (some (classFunction item))

/-- `Inventory.prototype.default`, of the parsed file. -/
def default (inventory : Value N) : List (Value N) :=
  match inventory with
  | .array items => items
  | _ => []

def load (inventory : Value N) : Option (List (Item N)) := do
  let loaded ← (default inventory).mapM loadItem
  some loaded.reduceOption

/-! ### Equipping -/

/-- The record that `equipped` returns. -/
abbrev States := Str → Option Bool

/-- `states[name] = value` for a boolean, which does nothing to `__proto__`. -/
def States.set (states : States) (name : Str) (value : Bool) : States := fun key =>
  if key = name ∧ name ≠ "__proto__".toList then some value else states key

/-- What every object inherits, none of which is falsy. -/
def objectPrototype : List Str :=
  [ "__proto__".toList, "__defineGetter__".toList, "__defineSetter__".toList,
    "__lookupGetter__".toList, "__lookupSetter__".toList, "constructor".toList,
    "hasOwnProperty".toList, "isPrototypeOf".toList, "propertyIsEnumerable".toList,
    "toLocaleString".toList, "toString".toList, "valueOf".toList ]

/-- `!!states[name]` -/
def States.truthy (states : States) (name : Str) : Bool :=
  (states name).getD (objectPrototype.contains name)

variable (defaults : List Str)

/-- `Inventory.prototype.equipped`, where `defaults` are those of `Appearance.slots.defaults`. -/
def equipped (items : List (Item N)) : Option States :=
  items.foldlM (fun states item => do
    let slotNames ← names num (item.get "data".toList)
    slotNames.foldlM (fun states slotName => do
      let name ← slotName.toText num
      some (if states name = some false ∧ item.equipped then states.set name true else states))
      states)
    (defaults.foldl (fun memo name => memo.set name false) fun _ => none)

/-- `Inventory.prototype.equip`, of the item at `i`. -/
def equip (i : Nat) (items : List (Item N)) : Option (List (Item N)) := do
  let slotNames ← names num (items[i]?.bind fun item => item.get "data".toList)
  slotNames.foldlM (fun items slotName => do
    let states ← equipped num defaults items
    let name ← slotName.toText num
    some (if states.truthy name then items
      else items.modify i fun item => { item with equipped := true }))
    items

def findEquipment (items : List (Item N)) : Option (List (Item N)) :=
  (List.range items.length).foldlM (fun items i =>
    if isText (items[i]?.bind fun item => item.get "type".toList) "apparel".toList then
      equip num defaults i items
    else some items)
    items

/-- The constructor of `Inventory`. -/
def construct (inventory : Value N) : Option (List (Item N)) := do
  findEquipment num defaults (← load inventory)

/-! ### Items that are loaded -/

theorem isText_iff {value : Option (Value N)} {text : Str} :
    isText value text ↔ value = some (.string text) := by
  cases value with
  | none => simp [isText]
  | some value => cases value <;> simp [isText]

/-- Whether an entry has a type that `Inventory.types` lists. -/
def registered (entry : Value N) : Bool :=
  isText (has (some entry) "type".toList).join "apparel".toList

theorem findWhere_eq (type : Value N) :
    findWhere type =
      if isText (some type) "apparel".toList then some ⟨"apparel".toList, some Apparel⟩
      else none := by
  have hrow : ∀ row : ItemType N, [row].find? (fun row => isText (some type) row.type) =
      if isText (some type) row.type then some row else none :=
    fun row => List.find?_singleton
  exact hrow _

theorem loadItem_registered {entry : Value N} (h : registered entry) :
    loadItem entry = some (some (Apparel entry)) := by
  obtain ⟨found, hfound, htype⟩ := Option.bind_eq_some_iff.mp (isText_iff.mp h)
  obtain rfl : found = _ := htype
  have hwhere : findWhere (.string "apparel".toList : Value N) =
      some ⟨"apparel".toList, some Apparel⟩ := by
    rw [findWhere_eq, if_pos (isText_iff.mpr rfl)]
  simp only [loadItem, hfound, Option.bind_eq_bind, Option.bind_some, hwhere]

/-- Any other entry is left out when it has no type, and stops the loading when it has one. -/
theorem loadItem_unregistered {entry : Value N} (h : registered entry = false) :
    loadItem entry = (has (some entry) "type".toList).bind fun type =>
      if type.isSome then none else some none := by
  rw [loadItem]
  cases hfound : has (some entry) "type".toList with
  | none => rfl
  | some type =>
    cases type with
    | none => rfl
    | some type =>
      have htype : isText (some type) "apparel".toList = false := by
        rw [registered, hfound] at h
        exact h
      have hwhere : findWhere type = none := by
        rw [findWhere_eq, htype]
        rfl
      simp only [Option.bind_eq_bind, Option.bind_some, hwhere]
      rfl

theorem loadItem_iff {entry : Value N} :
    (loadItem entry).isSome ↔ has (some entry) "type".toList = some none ∨ registered entry := by
  cases h : registered entry with
  | true => simp [loadItem_registered h]
  | false =>
    rw [loadItem_unregistered h]
    cases has (some entry) "type".toList with
    | none => simp
    | some type => cases type <;> simp

theorem loadItem_eq {entry : Value N} (h : (loadItem entry).isSome) :
    loadItem entry = some (if registered entry then some (Apparel entry) else none) := by
  cases hregistered : registered entry with
  | true => exact loadItem_registered hregistered
  | false =>
    have hnone := (loadItem_iff.mp h).resolve_right (by simp [hregistered])
    rw [loadItem_unregistered hregistered, hnone]
    rfl

theorem reduceOption_registered (entries : List (Value N)) :
    (entries.map fun entry =>
      if registered entry then some (Apparel entry) else none).reduceOption =
      (entries.filter registered).map Apparel := by
  induction entries with
  | nil => rfl
  | cons entry entries ih =>
    rw [List.map_cons, List.filter_cons]
    split
    · rw [List.reduceOption_cons_of_some, ih, List.map_cons]
    · rw [List.reduceOption_cons_of_none, ih]

/-- What `load` returns when it does not throw. -/
theorem load_eq {entries : List (Value N)} (h : ∀ entry ∈ entries, (loadItem entry).isSome) :
    load (.array entries) = some ((entries.filter registered).map Apparel) := by
  have hloaded : entries.mapM loadItem =
      some (entries.map fun entry => if registered entry then some (Apparel entry) else none) := by
    rw [mapM_eq_some, List.forall₂_map_right_iff, List.forall₂_same]
    exact fun entry hentry => loadItem_eq (h entry hentry)
  rw [load, default, hloaded, ← reduceOption_registered]
  rfl

theorem lookup_filter {p : Str × Value N → Bool} {name : Str} (h : ∀ value, p (name, value) = true)
    (properties : List (Str × Value N)) :
    (properties.filter p).lookup name = properties.lookup name := by
  induction properties with
  | nil => rfl
  | cons property rest ih =>
    obtain ⟨key, value⟩ := property
    by_cases hkey : name = key
    · subst hkey
      rw [List.filter_cons_of_pos (h value), List.lookup_cons_self, List.lookup_cons_self]
    · have hbeq : (name == key) = false := by simpa using hkey
      rw [List.filter_cons, List.lookup_cons, hbeq]
      split
      · rw [List.lookup_cons, hbeq]
        exact ih
      · exact ih

theorem lookup_fields (properties : List (Str × Value N)) {name : Str}
    (hstates : name ≠ "states".toList) (hproto : name ≠ "__proto__".toList) :
    (Apparel (.object properties)).fields.lookup name = properties.lookup name :=
  lookup_filter (fun _ => decide_eq_true ⟨hstates, hproto⟩) _

/-- An item has every field of its entry but for two. -/
theorem Apparel_get {entry : Value N} {name : Str} {value : Value N}
    (h : has (some entry) name = some (some value)) (hstates : name ≠ "states".toList)
    (hproto : name ≠ "__proto__".toList) : (Apparel entry).get name = some value := by
  cases entry with
  | object properties =>
    have hlookup : properties.lookup name = some value := Option.some.inj h
    rw [Item.get]
    rw [lookup_fields properties hstates hproto, hlookup]
    rfl
  | _ => simp [has] at h

/-! ### The slots of an item -/

/-- The names of the slots of an appearance, as the keys that they are used for. -/
def slotNames (data : Option (Value N)) : Option (List Str) := do
  (← names num data).mapM (Value.toText num)

theorem slotNames_none : slotNames num none = none := rfl

def Item.slots (item : Item N) : Option (List Str) := slotNames num (item.get "data".toList)

theorem Apparel_slots {entry : Value N} {slots : List Str}
    (h : slotNames num (has (some entry) "data".toList).join = some slots) :
    (Apparel entry).slots num = some slots := by
  cases hdata : (has (some entry) "data".toList).join with
  | none =>
    rw [hdata, slotNames_none] at h
    cases h
  | some data =>
    obtain ⟨found, hfound, rfl⟩ := Option.bind_eq_some_iff.mp hdata
    rw [Item.slots, Apparel_get hfound (by decide) (by decide), ← hdata]
    exact h

/-- An item with the given state. -/
def Item.dress (item : Item N) (e : Bool) : Item N := { item with equipped := e }

@[simp] theorem dress_equipped (item : Item N) (e : Bool) : (item.dress e).equipped = e := rfl

@[simp] theorem dress_get (item : Item N) (e : Bool) (name : Str) :
    (item.dress e).get name = item.get name := rfl

@[simp] theorem dress_slots (item : Item N) (e : Bool) :
    (item.dress e).slots num = item.slots num := rfl

theorem dress_self {item : Item N} {e : Bool} (h : item.equipped = e) : item.dress e = item := by
  subst h
  rfl

/-- The slots of the items that are equipped. -/
def worn (items : List (Item N)) : List (List Str) :=
  (items.filter (·.equipped)).map fun item => (item.slots num).getD []

/-! ### The record of `equipped` -/

theorem States.set_self (states : States) {name : Str} (value : Bool)
    (h : name ≠ "__proto__".toList) : states.set name value name = some value :=
  if_pos ⟨rfl, h⟩

theorem States.set_other (states : States) {name key : Str} (value : Bool) (h : key ≠ name) :
    states.set name value key = states key :=
  if_neg fun hkey => h hkey.1

theorem States.set_proto (states : States) (value : Bool) :
    states.set "__proto__".toList value = states := by
  funext key
  exact if_neg fun hkey => hkey.2 rfl

/-- Whether the record has an entry for a slot. -/
def Tracked (name : Str) : Prop := name ∈ defaults ∧ name ≠ "__proto__".toList

instance (name : Str) : Decidable (Tracked defaults name) :=
  inferInstanceAs (Decidable (name ∈ defaults ∧ name ≠ "__proto__".toList))

def marked (held : Str → Bool) : States := fun name =>
  if Tracked defaults name then some (held name) else none

variable {defaults} in
theorem marked_tracked {name : Str} (h : Tracked defaults name) (held : Str → Bool) :
    marked defaults held name = some (held name) :=
  if_pos h

variable {defaults} in
theorem marked_untracked {name : Str} (h : ¬Tracked defaults name) (held : Str → Bool) :
    marked defaults held name = none :=
  if_neg h

theorem fold_defaults :
    defaults.foldl (fun (memo : States) name => memo.set name false) (fun _ => none) =
      marked defaults fun _ => false := by
  induction defaults using List.reverseRecOn with
  | nil =>
    funext key
    exact (marked_untracked (fun h => List.not_mem_nil h.1) _).symm
  | append_singleton rest name ih =>
    rw [List.foldl_append, ih]
    funext key
    show (marked rest fun _ => false).set name false key = _
    by_cases hkey : key = name
    · subst hkey
      by_cases hproto : key = "__proto__".toList
      · subst hproto
        rw [States.set_proto, marked_untracked (fun h => h.2 rfl),
          marked_untracked (fun h => h.2 rfl)]
      · rw [States.set_self _ _ hproto, marked_tracked ⟨by simp, hproto⟩]
    · have htracked : Tracked (rest ++ [name]) key ↔ Tracked rest key := by
        simp only [Tracked, List.mem_append, List.mem_singleton, hkey, or_false]
      rw [States.set_other _ _ hkey]
      by_cases h : Tracked rest key
      · rw [marked_tracked h, marked_tracked (htracked.mpr h)]
      · rw [marked_untracked h, marked_untracked (mt htracked.mp h)]

/-- What `equipped` does with the slots of one item. -/
def mark (states : States) (outfit : Bool × List Str) : States :=
  outfit.2.foldl (fun states name =>
    if states name = some false ∧ outfit.1 then states.set name true else states) states

theorem mark_name (held : Str → Bool) (isEquipped : Bool) (name : Str) :
    (if marked defaults held name = some false ∧ isEquipped then
      (marked defaults held).set name true else marked defaults held) =
      marked defaults fun key => held key || isEquipped && key == name := by
  funext key
  by_cases hkey : key = name
  · subst hkey
    by_cases htracked : Tracked defaults key
    · rw [marked_tracked htracked, marked_tracked htracked, beq_self_eq_true, Bool.and_true]
      split
      · rename_i hset
        rw [States.set_self _ _ htracked.2, hset.2, Bool.or_true]
      · rename_i hset
        rw [marked_tracked htracked]
        cases hheld : held key with
        | true => rfl
        | false =>
          cases isEquipped with
          | true => exact absurd ⟨by rw [hheld], rfl⟩ hset
          | false => rfl
    · rw [marked_untracked htracked, marked_untracked htracked, if_neg (by simp)]
      exact marked_untracked htracked _
  · have hbeq : (key == name) = false := by simpa using hkey
    have hright : marked defaults (fun key => held key || isEquipped && key == name) key =
        marked defaults held key := by
      simp only [marked, hbeq, Bool.and_false, Bool.or_false]
    rw [hright]
    split
    · exact States.set_other _ _ hkey
    · rfl

theorem mark_marked (held : Str → Bool) (isEquipped : Bool) (slots : List Str) :
    mark (marked defaults held) (isEquipped, slots) =
      marked defaults fun name => held name || isEquipped && slots.contains name := by
  show slots.foldl (fun (states : States) name =>
    if states name = some false ∧ isEquipped then states.set name true else states) _ = _
  induction slots generalizing held with
  | nil => simp
  | cons first rest ih =>
    rw [List.foldl_cons, mark_name, ih]
    simp only [List.contains_cons, Bool.and_or_distrib_left, Bool.or_assoc]

theorem marks_marked (held : Str → Bool) (outfits : List (Bool × List Str)) :
    outfits.foldl mark (marked defaults held) =
      marked defaults fun name => held name ||
        outfits.any fun outfit => outfit.1 && outfit.2.contains name := by
  induction outfits generalizing held with
  | nil => simp
  | cons first rest ih =>
    rw [List.foldl_cons, mark_marked, ih]
    simp only [List.any_cons, Bool.or_assoc]

theorem equipped_bind (items : List (Item N)) :
    equipped num defaults items =
      (items.mapM fun item => do some (item.equipped, ← item.slots num)) >>= fun outfits =>
        some (outfits.foldl mark (marked defaults fun _ => false)) := by
  have hstep : ∀ (states : States) (item : Item N), (do
      let slotNames ← names num (item.get "data".toList)
      slotNames.foldlM (fun (states : States) slotName => do
        let name ← slotName.toText num
        some (if states name = some false ∧ item.equipped then states.set name true else states))
        states) =
      (do some (item.equipped, ← item.slots num)) >>= fun outfit => some (mark states outfit) := by
    intro states item
    rw [Item.slots, slotNames]
    cases names num (item.get "data".toList) with
    | none => rfl
    | some slotNames =>
      have hfold := foldlM_bind (Value.toText num) (fun (states : States) name =>
        some (if states name = some false ∧ item.equipped then states.set name true else states))
        slotNames states
      simp only [foldlM_some] at hfold
      show slotNames.foldlM _ states = _
      refine hfold.trans ?_
      show _ = ((slotNames.mapM (Value.toText num) >>= fun slots => some (item.equipped, slots)) >>=
        fun outfit => some (mark states outfit))
      cases slotNames.mapM (Value.toText num) <;> rfl
  rw [equipped, fold_defaults]
  simp only [hstep]
  rw [foldlM_bind]
  simp only [foldlM_some]

/-- The record has `true` for the slots of the items that are equipped. -/
theorem equipped_eq {items : List (Item N)} (h : ∀ item ∈ items, (item.slots num).isSome) :
    equipped num defaults items =
      some (marked defaults fun name => (worn num items).any (·.contains name)) := by
  have houtfits : (items.mapM fun item => do some (item.equipped, ← item.slots num)) =
      some (items.map fun item => (item.equipped, (item.slots num).getD [])) := by
    rw [mapM_eq_some, List.forall₂_map_right_iff, List.forall₂_same]
    intro item hitem
    obtain ⟨slots, hslots⟩ := Option.isSome_iff_exists.mp (h item hitem)
    rw [hslots]
    rfl
  rw [equipped_bind, houtfits]
  show some (List.foldl mark _ _) = _
  rw [marks_marked]
  congr 2
  funext name
  simp [worn, List.any_map, List.any_filter, Function.comp_def]

/-- The record is there only when the slots of every item are. -/
theorem isSome_slots {items : List (Item N)} {states : States}
    (h : equipped num defaults items = some states) {item : Item N} (hitem : item ∈ items) :
    (item.slots num).isSome := by
  rw [equipped_bind] at h
  obtain ⟨outfits, houtfits, -⟩ := Option.bind_eq_some_iff.mp h
  have hsome := isSome_mapM.mp (Option.isSome_of_eq_some houtfits) item hitem
  cases hslots : item.slots num with
  | none => simp [hslots] at hsome
  | some slots => rfl

end Starfall.Script
