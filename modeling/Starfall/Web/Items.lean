import Starfall.Web.Properties

/-! `items.js`: the form that makes an item type, and the form that makes an item of one of the
types.  A type is an object with a property for each name that was added and with its own name, and
an item is an object with its type, its data and what was typed for the keys of the type. -/

namespace Starfall.Items

open Components (Properties put)

abbrev Str := Components.Str

abbrev Value := Components.Value Int

/-- What the browser does with texts and with the markup of the form.  `select` is the value of the
select with the given options when the one at a place is chosen, and `val` is what jQuery finds as
the value of `"#" + id` when some texts were typed into the inputs of the markup.  It may refuse the
selector, or find nothing. -/
structure Browser where
  toLowerCase : Str → Str
  toUpperCase : Char → Str
  select : Str → Nat → Option Str
  val : Str → List Str → Str → Option (Option Str)

variable (browser : Browser)

/-- What a type has under a key: a text, or what the form makes for a name that is added. -/
inductive Field
  | text (s : Str)
  | entry (dataType value : Str)
  deriving DecidableEq

/-- What an object visits that inherits from a field. -/
def Field.prototype : Field → Option (List (Str × Field))
  | .text _ => none
  | .entry dataType value =>
    some [("dataType".toList, .text dataType), ("value".toList, .text value)]

/-- The properties of a type.  What the type inherits is not sent. -/
abbrev ItemType := List (Str × Field)

/-- The handler of the `addPropertyButton`, for a name and a data type. -/
def addProperty (currentItemPrototype : Properties Field) (property : Str × Str) :
    Properties Field :=
  let name := browser.toLowerCase property.1
  if name.length > 0 then
    currentItemPrototype.set Field.prototype name (.entry property.2 [])
  else currentItemPrototype

/-- The handler of the `okButton`: the type that is sent for a name. -/
def createItemType (currentItemPrototype : Properties Field) (value : Str) : Option ItemType :=
  if value.length > 0 then
    some (currentItemPrototype.set Field.prototype "name".toList
      (.text (browser.toLowerCase value))).own
  else none

/-- What was typed into the form: the properties that were added, and the name of the type. -/
structure Typed where
  properties : List (Str × Str)
  name : Str
  name_ne : name ≠ []

/-- The properties that the form has when the `okButton` is clicked. -/
def Typed.currentItemPrototype (made : Typed) : Properties Field :=
  made.properties.foldl (addProperty browser) ⟨[], []⟩

def Typed.itemType (made : Typed) : ItemType :=
  ((made.currentItemPrototype browser).set Field.prototype "name".toList
    (.text (browser.toLowerCase made.name))).own

/-- The keys that the type should have. -/
def Typed.keys (made : Typed) : List Str :=
  "name".toList :: (made.properties.map fun property =>
    browser.toLowerCase property.1).filter (· ≠ [])

def nameOf (elem : ItemType) : Option Str :=
  match elem.lookup "name".toList with
  | some (.text name) => some name
  | _ => none

def capitalize : Str → Str
  | [] => []
  | c :: rest => browser.toUpperCase c ++ rest

/-- The options of `template-object-item-select`, less the white space. -/
def optionsHtml (names : List Str) : Str :=
  names.flatMap fun name =>
    "<option value='".toList ++ name ++ "'>".toList ++ capitalize browser name ++
      "</option>".toList

/-- An input, and the key that it is for. -/
structure Input where
  inputID : Str
  key : Str

/-- The form.  `list` is the markup of the inputs, if the list for it was rendered. -/
structure Form where
  itemTypes : List ItemType
  selected : Nat
  list : Option Str
  selectedItemTypeInputs : List Input

/-- The value of the select, which there is only if there are types. -/
def Form.value (form : Form) : Option Str :=
  if form.itemTypes.length > 0 then
    browser.select (optionsHtml browser (form.itemTypes.map fun elem => (nameOf elem).getD []))
      form.selected
  else none

/-- The loop of `getSelection`, which keeps the last of the types with the name. -/
def selectNamed (value : Str) (itemTypes : List ItemType) (selectedItemType : ItemType) :
    ItemType :=
  itemTypes.foldl (fun s elem => if nameOf elem = some value then elem else s) selectedItemType

def Form.getSelection (form : Form) : ItemType :=
  match form.value browser with
  | none => []
  | some value => selectNamed value form.itemTypes []

/-- `listID` is the id of the list. -/
def inputID (listID key : Str) : Str := listID ++ "_".toList ++ key

def defaultValue : Field → Str
  | .text _ => []
  | .entry _ value => value

def rowHtml (listID key : Str) (field : Field) : Str :=
  "<li><table width='100%'><tr><td width='50%'>".toList ++ capitalize browser key ++
    "</td><td width='50%'><input id='".toList ++ inputID listID key ++
    "' type='text' value='".toList ++ defaultValue field ++ "' /></td></tr></table></li>".toList

/-- `Instance.Form.Model.prototype.render`, of a selection. -/
def render (listID : Str) (selection : ItemType) : Str × List Input :=
  (selection.flatMap fun (key, field) => rowHtml browser listID key field,
    selection.map fun (key, _) => ⟨inputID listID key, key⟩)

/-- `Instance.Form.View.prototype.update` of a form that is opened.  The first content has no list,
because there is no select yet. -/
def update (listID : Str) (itemTypes : List ItemType) : Form :=
  let form : Form := ⟨itemTypes, 0, none, []⟩
  let selection := form.getSelection browser
  if selection.length > 0 then
    let (html, inputs) := render browser listID selection
    { form with list := some html, selectedItemTypeInputs := inputs }
  else form

/-- `registerSelectChange`: the inputs are appended to the list, if there is one. -/
def change (listID : Str) (form : Form) (selected : Nat) : Form :=
  let form := { form with selected }
  let (html, inputs) := render browser listID (form.getSelection browser)
  { form with list := form.list.map fun _ => html, selectedItemTypeInputs := inputs }

/-- What an object visits that inherits from a value. -/
def prototype : Option Value → Option (List (Str × Option Value))
  | some value =>
    if value.isObject then some (value.properties.map fun property => (property.1, some property.2))
    else none
  | none => none

/-- What jQuery finds for an id when `typed` was typed for the keys. -/
def Form.val (form : Form) (typed : Str → Str) (id : Str) : Option (Option Str) :=
  browser.val (form.list.getD []) (form.selectedItemTypeInputs.map fun obj => typed obj.key) id

/-- The loop of `registerOkButton` over the inputs. -/
def assign (val : Str → Option (Option Str)) :
    List Input → Properties (Option Value) → Option (Properties (Option Value))
  | [], item => some item
  | obj :: inputs, item =>
    match val obj.inputID with
    | some value => assign val inputs (item.set prototype obj.key (value.map .string))
    | none => none

/-- `registerOkButton`: the item that is sent, unless jQuery refuses one of the selectors. -/
def okClick (form : Form) (data : Value) (typed : Str → Str) :
    Option (Properties (Option Value)) :=
  let item : Properties (Option Value) := ⟨[], []⟩
  let item := item.set prototype "type".toList ((nameOf (form.getSelection browser)).map .string)
  let item := item.set prototype "data".toList (some data)
  assign (form.val browser typed) form.selectedItemTypeInputs item

/-- What `JSON.stringify` writes for a key: what is undefined is left out. -/
def written (item : Properties (Option Value)) (key : Str) : Option Value :=
  (item.own.lookup key).join

variable {browser}

theorem has_addProperty {obj : Properties Field} (h : obj.has "__proto__".toList = false)
    (property : Str × Str) : (addProperty browser obj property).has "__proto__".toList = false := by
  rw [addProperty]
  split
  · exact Properties.has_proto_set Field.prototype h _ _
  · exact h

theorem mem_addProperty {obj : Properties Field} (h : obj.has "__proto__".toList = false)
    (property : Str × Str) (key : Str) :
    key ∈ (addProperty browser obj property).own.map Prod.fst ↔
      key ∈ obj.own.map Prod.fst ∨
        (key = browser.toLowerCase property.1 ∧ key ≠ []) ∧ key ≠ "__proto__".toList := by
  rw [addProperty]
  split
  · rename_i hname
    rw [Properties.mem_set Field.prototype h]
    refine or_congr Iff.rfl (and_congr_left fun _ => (and_iff_left_of_imp ?_).symm)
    rintro rfl
    exact List.length_pos_iff.mp hname
  · rename_i hname
    have hnone : browser.toLowerCase property.1 = [] :=
      List.length_eq_zero_iff.mp (Nat.eq_zero_of_not_pos hname)
    rw [hnone]
    exact (or_iff_left fun hkey => hkey.1.2 hkey.1.1).symm

variable (browser) in
/-- The properties of the form are the names that were added, less `__proto__`. -/
theorem mem_addProperties (properties : List (Str × Str)) {obj : Properties Field}
    (h : obj.has "__proto__".toList = false) :
    (properties.foldl (addProperty browser) obj).has "__proto__".toList = false ∧
      ∀ key, key ∈ (properties.foldl (addProperty browser) obj).own.map Prod.fst ↔
        key ∈ obj.own.map Prod.fst ∨
          (∃ property ∈ properties, key = browser.toLowerCase property.1 ∧ key ≠ []) ∧
            key ≠ "__proto__".toList := by
  induction properties generalizing obj with
  | nil => exact ⟨h, by simp⟩
  | cons property properties ih =>
    obtain ⟨hproto, hmem⟩ := ih (has_addProperty h property)
    refine ⟨hproto, fun key => ?_⟩
    rw [List.foldl_cons, hmem, mem_addProperty h, or_assoc, ← or_and_right]
    simp only [List.exists_mem_cons_iff]

/-- A type has the keys that it should have, except that a property `__proto__` is never one of
them. -/
theorem mem_itemType (made : Typed) (key : Str) :
    key ∈ (made.itemType browser).map Prod.fst ↔
      key ∈ made.keys browser ∧ key ≠ "__proto__".toList := by
  have hempty : (⟨[], []⟩ : Properties Field).has "__proto__".toList = false := rfl
  obtain ⟨hproto, hmem⟩ := mem_addProperties browser made.properties hempty
  have hnone : key ∉ ([] : List (Str × Field)).map Prod.fst := List.not_mem_nil
  rw [Typed.itemType, Typed.currentItemPrototype, Properties.mem_set Field.prototype hproto, hmem,
    or_iff_right hnone, ← or_and_right, or_comm, Typed.keys, List.mem_cons, List.mem_filter,
    List.mem_map, decide_eq_true_iff]
  refine and_congr_left fun _ => or_congr Iff.rfl ?_
  constructor
  · rintro ⟨property, hproperty, rfl, hne⟩
    exact ⟨⟨property, hproperty, rfl⟩, hne⟩
  · rintro ⟨⟨property, hproperty, rfl⟩, hne⟩
    exact ⟨property, hproperty, rfl, hne⟩

/-- The inputs of a type are empty at first. -/
theorem defaultValue_itemType (made : Typed) :
    ∀ property ∈ made.itemType browser, defaultValue property.2 = [] := by
  have hproperties : ∀ (properties : List (Str × Str)) (obj : Properties Field),
      (∀ property ∈ obj.own, defaultValue property.2 = []) →
        ∀ property ∈ (properties.foldl (addProperty browser) obj).own,
          defaultValue property.2 = [] := by
    intro properties
    induction properties with
    | nil => exact fun obj h => h
    | cons property properties ih =>
      intro obj h
      refine ih _ ?_
      rw [addProperty]
      split
      · exact Properties.forall_set Field.prototype h rfl
      · exact h
  exact Properties.forall_set Field.prototype (hproperties _ ⟨[], []⟩ (by simp)) rfl

theorem nameOf_itemType (made : Typed) :
    nameOf (made.itemType browser) = some (browser.toLowerCase made.name) := by
  rw [nameOf, Typed.itemType, Properties.lookup_set _ _ _ (by decide), if_pos rfl]

theorem createItemType_made (made : Typed) :
    createItemType browser (made.currentItemPrototype browser) made.name =
      some (made.itemType browser) := by
  rw [createItemType, if_pos (List.length_pos_iff.mpr made.name_ne)]
  rfl

end Starfall.Items
