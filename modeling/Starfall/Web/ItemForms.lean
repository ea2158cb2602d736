import Starfall.Web.ItemMarkup

/-! What is sent for an item.  The type and the data stand in the same object as what was typed for
the keys of the type, and are assigned first, so that a key `type` or `data` overwrites them. -/

namespace Starfall.Items

open Components (Properties)

variable {browser : Browser}

theorem selectNamed_mem (value : Str) (elems : List ItemType) (init : ItemType) :
    selectNamed value elems init ∈ init :: elems := by
  rw [selectNamed]
  induction elems generalizing init with
  | nil => exact List.mem_singleton_self init
  | cons elem elems ih =>
    rw [List.foldl_cons]
    split
    · exact List.mem_cons_of_mem _ (ih elem)
    · rcases List.mem_cons.mp (ih init) with heq | hmem
      · exact List.mem_cons.mpr (.inl heq)
      · exact List.mem_cons_of_mem _ (List.mem_cons_of_mem _ hmem)

variable (browser) in
/-- What the form shows is one of the types. -/
theorem getSelection_mem (form : Form) :
    form.getSelection browser = [] ∨ form.getSelection browser ∈ form.itemTypes := by
  rw [Form.getSelection]
  split
  · exact .inl rfl
  · exact List.mem_cons.mp (selectNamed_mem _ form.itemTypes [])

/-- The types, after what was typed for each of them was sent and loaded. -/
def itemTypes (browser : Browser) (types : List Typed) : List ItemType :=
  types.map (Typed.itemType browser)

/-- The form after it was opened and options were chosen one after the other. -/
def run (browser : Browser) (listID : Str) (types : List Typed) (changes : List Nat) : Form :=
  changes.foldl (change browser listID) (update browser listID (itemTypes browser types))

/-- The form has an input for each key of what it shows. -/
structure Current (browser : Browser) (listID : Str) (types : List Typed) (form : Form) :
    Prop where
  itemTypes : form.itemTypes = itemTypes browser types
  inputs : form.selectedItemTypeInputs =
    (form.getSelection browser).map fun (key, _) => ⟨inputID listID key, key⟩

theorem current_update (listID : Str) (types : List Typed) :
    Current browser listID types (update browser listID (itemTypes browser types)) := by
  rw [update]
  dsimp only
  split
  · exact ⟨rfl, rfl⟩
  · rename_i hempty
    refine ⟨rfl, ?_⟩
    rw [List.eq_nil_of_length_eq_zero (Nat.eq_zero_of_not_pos hempty)]
    rfl

theorem Current.change {listID : Str} {types : List Typed} {form : Form}
    (h : Current browser listID types form) (selected : Nat) :
    Current browser listID types (change browser listID form selected) :=
  ⟨h.itemTypes, rfl⟩

variable (browser) in
theorem current_run (listID : Str) (types : List Typed) (changes : List Nat) :
    Current browser listID types (run browser listID types changes) := by
  have hchanges : ∀ form, Current browser listID types form →
      Current browser listID types (changes.foldl (change browser listID) form) := by
    induction changes with
    | nil => exact fun form h => h
    | cons selected changes ih => exact fun form h => ih _ (h.change selected)
  exact hchanges _ (current_update listID types)

theorem assign_isSome_iff {val : Str → Option (Option Str)} {inputs : List Input}
    (item : Properties (Option Value)) :
    (assign val inputs item).isSome ↔ ∀ obj ∈ inputs, (val obj.inputID).isSome := by
  induction inputs generalizing item with
  | nil => simp [assign]
  | cons obj inputs ih =>
    rw [assign, List.forall_mem_cons]
    cases val obj.inputID with
    | none => simp
    | some value => simp [ih]

/-- The loop assigns what jQuery finds for the keys, and leaves the rest of the item alone. -/
theorem lookup_assign {val : Str → Option (Option Str)} {listID : Str} {inputs : List Input}
    (hinputs : ∀ obj ∈ inputs, obj.inputID = inputID listID obj.key ∧
      obj.key ≠ "__proto__".toList)
    {item item' : Properties (Option Value)} (h : assign val inputs item = some item')
    (key : Str) :
    item'.own.lookup key =
      if key ∈ inputs.map (·.key) then
        some ((val (inputID listID key)).join.map .string)
      else item.own.lookup key := by
  induction inputs generalizing item with
  | nil =>
    cases h
    rfl
  | cons obj inputs ih =>
    rw [List.forall_mem_cons] at hinputs
    obtain ⟨⟨hid, hproto⟩, hinputs⟩ := hinputs
    rw [assign] at h
    split at h
    · rename_i value hvalue
      rw [ih hinputs h, List.map_cons, Properties.lookup_set _ _ _ hproto]
      by_cases hmem : key ∈ inputs.map (·.key)
      · rw [if_pos hmem, if_pos (List.mem_cons_of_mem _ hmem)]
      · by_cases hkey : key = obj.key
        · have hfirst : key ∈ obj.key :: inputs.map (·.key) := List.mem_cons.mpr (.inl hkey)
          rw [if_neg hmem, if_pos hkey, if_pos hfirst, hkey, ← hid, hvalue, Option.join_some]
        · have hnone : key ∉ obj.key :: inputs.map (·.key) := fun hcons =>
            (List.mem_cons.mp hcons).elim hkey hmem
          rw [if_neg hmem, if_neg hkey, if_neg hnone]
    · cases h

/-- The keys of what the form shows. -/
def Form.keys (browser : Browser) (form : Form) : List Str :=
  (form.getSelection browser).map Prod.fst

/-- What jQuery finds for the input of a key. -/
def Form.read (browser : Browser) (listID : Str) (form : Form) (typed : Str → Str) (key : Str) :
    Option (Option Str) :=
  form.val browser typed (inputID listID key)

section Sent

variable {listID : Str} {types : List Typed} {form : Form}

theorem Current.keys_inputs (h : Current browser listID types form) :
    form.selectedItemTypeInputs.map (·.key) = form.keys browser := by
  rw [h.inputs, List.map_map]
  rfl

theorem Current.proto_not_mem (h : Current browser listID types form) :
    "__proto__".toList ∉ form.keys browser := by
  rw [Form.keys]
  rcases getSelection_mem browser form with hnone | hmem
  · simp [hnone]
  · rw [h.itemTypes, Items.itemTypes, List.mem_map] at hmem
    obtain ⟨made, -, hmade⟩ := hmem
    rw [← hmade]
    exact fun hkey => ((mem_itemType made _).mp hkey).2 rfl

/-- An item is sent if jQuery takes the selectors of all keys. -/
theorem Current.okClick_isSome_iff (h : Current browser listID types form) (data : Value)
    (typed : Str → Str) :
    (okClick browser form data typed).isSome ↔
      ∀ key ∈ form.keys browser, (form.read browser listID typed key).isSome := by
  rw [okClick, assign_isSome_iff, h.inputs, List.forall_mem_map, Form.keys, List.forall_mem_map]
  rfl

/-- What is sent under a key: what was read for it if the form shows it, and else what the handler
put there before. -/
theorem Current.written_okClick (h : Current browser listID types form) {data : Value}
    {typed : Str → Str} {item : Properties (Option Value)}
    (hitem : okClick browser form data typed = some item) (key : Str) :
    written item key =
      if key ∈ form.keys browser then
        (form.read browser listID typed key).join.map .string
      else if key = "data".toList then some data
      else if key = "type".toList then (nameOf (form.getSelection browser)).map .string
      else none := by
  have hinputs : ∀ obj ∈ form.selectedItemTypeInputs,
      obj.inputID = inputID listID obj.key ∧ obj.key ≠ "__proto__".toList := by
    intro obj hobj
    constructor
    · rw [h.inputs] at hobj
      obtain ⟨property, -, rfl⟩ := List.mem_map.mp hobj
      rfl
    · intro hproto
      apply h.proto_not_mem
      rw [← h.keys_inputs, ← hproto]
      exact List.mem_map_of_mem hobj
  rw [okClick] at hitem
  rw [written, lookup_assign hinputs hitem, h.keys_inputs,
    Properties.lookup_set _ _ _ (by decide), Properties.lookup_set _ _ _ (by decide)]
  by_cases hkey : key ∈ form.keys browser
  · rw [if_pos hkey, if_pos hkey]
    rfl
  · rw [if_neg hkey, if_neg hkey]
    by_cases hdata : key = "data".toList
    · rw [if_pos hdata, if_pos hdata]
      rfl
    · rw [if_neg hdata, if_neg hdata]
      by_cases htype : key = "type".toList
      · rw [if_pos htype, if_pos htype]
        rfl
      · rw [if_neg htype, if_neg htype]
        rfl

theorem map_string_eq_iff {read : Option (Option Str)} {s : Str} :
    read.join.map Components.Value.string = some (.string s : Value) ↔ read = some (some s) := by
  rcases read with _ | _ | text <;> simp

variable {data : Value} {typed : Str → Str} {item : Properties (Option Value)}

theorem Current.written_type_iff (h : Current browser listID types form)
    (hitem : okClick browser form data typed = some item) (name : Str) :
    written item "type".toList = some (.string name) ↔
      if "type".toList ∈ form.keys browser then
        form.read browser listID typed "type".toList = some (some name)
      else nameOf (form.getSelection browser) = some name := by
  rw [h.written_okClick hitem]
  by_cases hkey : "type".toList ∈ form.keys browser
  · rw [if_pos hkey, if_pos hkey]
    exact map_string_eq_iff
  · rw [if_neg hkey, if_neg hkey, if_neg (by decide), if_pos rfl]
    cases nameOf (form.getSelection browser) <;> simp

/-- What was read is a text, which the data is not. -/
theorem Current.written_data_iff (h : Current browser listID types form)
    (hitem : okClick browser form data typed = some item) (hdata : data.isObject) :
    written item "data".toList = some data ↔ "data".toList ∉ form.keys browser := by
  rw [h.written_okClick hitem]
  by_cases hkey : "data".toList ∈ form.keys browser
  · rw [if_pos hkey]
    refine iff_of_false ?_ (not_not_intro hkey)
    intro hread
    obtain ⟨text, -, rfl⟩ := Option.map_eq_some_iff.mp hread
    cases hdata
  · rw [if_neg hkey, if_pos rfl]
    exact iff_of_true rfl hkey

theorem Current.written_other_iff (h : Current browser listID types form)
    (hitem : okClick browser form data typed = some item) {key : Str}
    (htype : key ≠ "type".toList) (hdata : key ≠ "data".toList) (s : Str) :
    written item key = some (.string s) ↔
      key ∈ form.keys browser ∧ form.read browser listID typed key = some (some s) := by
  rw [h.written_okClick hitem]
  by_cases hkey : key ∈ form.keys browser
  · rw [if_pos hkey, map_string_eq_iff, and_iff_right hkey]
  · rw [if_neg hkey, if_neg hdata, if_neg htype]
    exact iff_of_false (by simp) fun hread => hkey hread.1

end Sent

theorem lookup_zip_map {keys : List Str} (f : Str → Str) {key : Str} (h : key ∈ keys) :
    (keys.zip (keys.map f)).lookup key = some (f key) := by
  induction keys with
  | nil => cases h
  | cons first keys ih =>
    rw [List.map_cons, List.zip_cons_cons, Components.lookup_ite]
    split
    · rename_i heq
      rw [heq]
    · rename_i hne
      exact ih ((List.mem_cons.mp h).resolve_left hne)

section Lawful

variable (hlaw : browser.Lawful) {listID : Str} {types : List Typed} {form : Form}
  (hnames : ∀ made ∈ types, (browser.toLowerCase made.name).all plain)

include hlaw hnames

theorem value_eq (htypes : form.itemTypes = itemTypes browser types)
    (hselected : form.selected < types.length) :
    form.value browser = some (browser.toLowerCase types[form.selected].name) := by
  have hlist : form.itemTypes.map (fun elem => (nameOf elem).getD []) =
      types.map fun made => browser.toLowerCase made.name := by
    rw [htypes, itemTypes, List.map_map]
    apply List.map_congr_left
    intro made _
    rw [Function.comp_apply, nameOf_itemType, Option.getD_some]
  have hlength : form.itemTypes.length = types.length := by
    rw [htypes, itemTypes, List.length_map]
  rw [Form.value, if_pos (by omega), hlist, hlaw.select _ _ (List.forall_mem_map.mpr hnames),
    List.getElem?_map, List.getElem?_eq_getElem hselected, Option.map_some]

/-- The form shows the chosen type if none of the later ones has its name. -/
theorem getSelection_eq (htypes : form.itemTypes = itemTypes browser types)
    (hselected : form.selected < types.length)
    (hlater : ∀ made ∈ types.drop (form.selected + 1),
      browser.toLowerCase made.name ≠ browser.toLowerCase types[form.selected].name) :
    form.getSelection browser = types[form.selected].itemType browser := by
  have hnone : ∀ (elems : List Typed) (init : ItemType) (name : Str),
      (∀ made ∈ elems, browser.toLowerCase made.name ≠ name) →
        selectNamed name (itemTypes browser elems) init = init := by
    intro elems init name
    induction elems with
    | nil => exact fun _ => rfl
    | cons made elems ih =>
      intro h
      rw [List.forall_mem_cons] at h
      rw [itemTypes, List.map_cons, selectNamed, List.foldl_cons, nameOf_itemType,
        if_neg fun heq => h.1 (Option.some.inj heq)]
      exact ih h.2
  have hsplit : types = types.take form.selected ++
      types[form.selected] :: types.drop (form.selected + 1) := by
    rw [← List.drop_eq_getElem_cons hselected, List.take_append_drop]
  rw [Form.getSelection, value_eq hlaw hnames htypes hselected, htypes]
  dsimp only
  conv_lhs =>
    arg 2
    rw [hsplit]
  rw [itemTypes, List.map_append, List.map_cons, selectNamed, List.foldl_append,
    List.foldl_cons, nameOf_itemType, if_pos rfl]
  exact hnone _ _ _ hlater

/-- A form that is opened with types shows one of them. -/
theorem length_getSelection_pos (hlength : 0 < types.length) :
    0 < ((⟨itemTypes browser types, 0, none, []⟩ : Form).getSelection browser).length := by
  obtain ⟨first, rest, rfl⟩ := List.exists_cons_of_length_pos hlength
  have hvalue : (⟨itemTypes browser (first :: rest), 0, none, []⟩ : Form).value browser =
      some (browser.toLowerCase first.name) :=
    value_eq hlaw hnames rfl hlength
  have hshown : (⟨itemTypes browser (first :: rest), 0, none, []⟩ : Form).getSelection browser ∈
      itemTypes browser (first :: rest) := by
    rw [Form.getSelection, hvalue, itemTypes, List.map_cons]
    dsimp only
    rw [selectNamed, List.foldl_cons, nameOf_itemType, if_pos rfl]
    exact selectNamed_mem _ _ _
  obtain ⟨made, -, hmade⟩ := List.mem_map.mp hshown
  apply List.length_pos_iff.mpr
  intro hempty
  have hname : nameOf (made.itemType browser) = _ := nameOf_itemType made
  rw [hmade, hempty] at hname
  cases hname

variable (listID) in
/-- The list of a form that was opened with types has the inputs of what the form shows. -/
theorem list_run (hlength : 0 < types.length) (changes : List Nat) :
    (run browser listID types changes).list =
      some (render browser listID ((run browser listID types changes).getSelection browser)).1 := by
  have hupdate : (update browser listID (itemTypes browser types)).list =
      some (render browser listID ((update browser listID (itemTypes browser types)).getSelection
        browser)).1 := by
    rw [update]
    dsimp only
    rw [if_pos (length_getSelection_pos hlaw hnames hlength)]
    rfl
  rw [run]
  generalize update browser listID (itemTypes browser types) = form at hupdate
  induction changes generalizing form with
  | nil => exact hupdate
  | cons selected changes ih =>
    apply ih
    rw [change, hupdate]
    rfl

/-- The form reads what was typed for the keys that it shows. -/
theorem read_eq (hlist : listID.all Filters.identifier) (hlength : 0 < types.length)
    (changes : List Nat) (typed : Str → Str)
    (hkeys : ∀ key ∈ (run browser listID types changes).keys browser, key.all Filters.identifier)
    {key : Str} (hkey : key ∈ (run browser listID types changes).keys browser) :
    (run browser listID types changes).read browser listID typed key = some (some (typed key)) := by
  have hcurrent := current_run browser listID types changes
  have hrendered := list_run hlaw listID hnames hlength changes
  generalize run browser listID types changes = form at *
  have hselection : ∀ property ∈ form.getSelection browser,
      property.1.all Filters.identifier ∧ defaultValue property.2 = [] := by
    intro property hproperty
    refine ⟨hkeys _ (List.mem_map_of_mem hproperty), ?_⟩
    rcases getSelection_mem browser form with hnone | hmem
    · rw [hnone] at hproperty
      cases hproperty
    · rw [hcurrent.itemTypes] at hmem
      obtain ⟨made, -, hmade⟩ := List.mem_map.mp hmem
      rw [← hmade] at hproperty
      exact defaultValue_itemType made property hproperty
  have hvalues : form.selectedItemTypeInputs.map (fun obj => typed obj.key) =
      (form.keys browser).map typed := by
    rw [← hcurrent.keys_inputs, List.map_map]
    rfl
  rw [Form.read, Form.val, hrendered, Option.getD_some, hvalues,
    hlaw.val listID _ _ key hlist hselection (hkeys key hkey)]
  exact congrArg some (lookup_zip_map typed hkey)

end Lawful

/-- The item that is sent has the type's name, the data, and what was typed for the other keys. -/
def Right (browser : Browser) (form : Form) (made : Typed) (data : Value) (typed : Str → Str) :
    Prop :=
  ∃ item, okClick browser form data typed = some item ∧
    written item "type".toList = some (.string (browser.toLowerCase made.name)) ∧
    written item "data".toList = some data ∧
    ∀ key ∈ made.keys browser, key ≠ "type".toList → key ≠ "data".toList →
      written item key = some (.string (typed key))

/-- What the form has to show, and to read from its inputs, for the item of a type. -/
structure Safe (browser : Browser) (listID : Str) (form : Form) (made : Typed)
    (typed : Str → Str) : Prop where
  accepted : ∀ key ∈ form.keys browser, (form.read browser listID typed key).isSome
  type : if "type".toList ∈ form.keys browser then
      form.read browser listID typed "type".toList = some (some (browser.toLowerCase made.name))
    else nameOf (form.getSelection browser) = some (browser.toLowerCase made.name)
  data : "data".toList ∉ form.keys browser
  others : ∀ key ∈ made.keys browser, key ≠ "type".toList → key ≠ "data".toList →
    key ∈ form.keys browser ∧ form.read browser listID typed key = some (some (typed key))

variable (browser) in
/-- The item of the type whose option is chosen is right exactly if no key of the form is `data`,
one that is `type` holds the type's name, and the form reads what was typed for the others. -/
theorem sent_right_iff (listID : Str) (types : List Typed) (changes : List Nat)
    (hselected : (run browser listID types changes).selected < types.length)
    {X : Type} (appearance : Coloring.Appearance X) (typed : Str → Str) :
    Right browser (run browser listID types changes)
        types[(run browser listID types changes).selected] appearance.toValue typed ↔
      Safe browser listID (run browser listID types changes)
        types[(run browser listID types changes).selected] typed := by
  have hcurrent := current_run browser listID types changes
  generalize run browser listID types changes = form at hcurrent hselected
  generalize types[form.selected] = made
  have hsent := hcurrent.okClick_isSome_iff appearance.toValue typed
  constructor
  · rintro ⟨item, hitem, htype, hdata, hothers⟩
    refine ⟨?_, ?_, ?_, ?_⟩
    · rw [← hsent, hitem]
      rfl
    · exact (hcurrent.written_type_iff hitem _).mp htype
    · exact (hcurrent.written_data_iff hitem rfl).mp hdata
    · intro key hkey hne hne'
      exact (hcurrent.written_other_iff hitem hne hne' _).mp (hothers key hkey hne hne')
  · rintro ⟨haccepted, htype, hdata, hothers⟩
    obtain ⟨item, hitem⟩ := Option.isSome_iff_exists.mp (hsent.mpr haccepted)
    refine ⟨item, hitem, ?_, ?_, ?_⟩
    · exact (hcurrent.written_type_iff hitem _).mpr htype
    · exact (hcurrent.written_data_iff hitem rfl).mpr hdata
    · intro key hkey hne hne'
      exact (hcurrent.written_other_iff hitem hne hne' _).mpr (hothers key hkey hne hne')

/-- Where the form shows the type and reads what is typed, the condition is about the names that
were added and what was typed. -/
theorem safe_iff_of_reads {listID : Str} {form : Form} {made : Typed} {typed : Str → Str}
    (hshown : form.getSelection browser = made.itemType browser)
    (hread : ∀ key ∈ form.keys browser,
      form.read browser listID typed key = some (some (typed key))) :
    Safe browser listID form made typed ↔
      "data".toList ∉ made.keys browser ∧ "__proto__".toList ∉ made.keys browser ∧
      ("type".toList ∈ made.keys browser →
        typed "type".toList = browser.toLowerCase made.name) := by
  have hmem : ∀ key, key ∈ form.keys browser ↔
      key ∈ made.keys browser ∧ key ≠ "__proto__".toList := by
    intro key
    rw [Form.keys, hshown, mem_itemType]
  have htype : "type".toList ∈ form.keys browser ↔ "type".toList ∈ made.keys browser := by
    rw [hmem]
    exact and_iff_left (by decide)
  have hdata : "data".toList ∈ form.keys browser ↔ "data".toList ∈ made.keys browser := by
    rw [hmem]
    exact and_iff_left (by decide)
  constructor
  · rintro ⟨-, hsafe, hfree, hothers⟩
    refine ⟨fun hkey => hfree (hdata.mpr hkey), fun hkey => ?_, fun hkey => ?_⟩
    · have hproto := (hothers _ hkey (by decide) (by decide)).1
      exact ((hmem _).mp hproto).2 rfl
    · rw [if_pos (htype.mpr hkey), hread _ (htype.mpr hkey)] at hsafe
      exact Option.some.inj (Option.some.inj hsafe)
  · rintro ⟨hfree, hproto, htyped⟩
    refine ⟨?_, ?_, fun hkey => hfree (hdata.mp hkey), ?_⟩
    · intro key hkey
      rw [hread key hkey]
      rfl
    · split
      · rename_i hkey
        rw [hread _ hkey, htyped (htype.mp hkey)]
      · rw [hshown, nameOf_itemType]
    · intro key hkey _ _
      have hform := (hmem key).mpr ⟨hkey, fun heq => hproto (heq ▸ hkey)⟩
      exact ⟨hform, hread key hform⟩

/-- So it is with plain names and identifiers as keys, for a type that no later one hides. -/
theorem safe_iff (hlaw : browser.Lawful) {listID : Str} {types : List Typed}
    (hnames : ∀ made ∈ types, (browser.toLowerCase made.name).all plain)
    (hlist : listID.all Filters.identifier) (changes : List Nat)
    (hselected : (run browser listID types changes).selected < types.length)
    (hlater : ∀ made ∈ types.drop ((run browser listID types changes).selected + 1),
      browser.toLowerCase made.name ≠
        browser.toLowerCase types[(run browser listID types changes).selected].name)
    (hkeys : ∀ key ∈ types[(run browser listID types changes).selected].keys browser,
      key.all Filters.identifier) (typed : Str → Str) :
    Safe browser listID (run browser listID types changes)
        types[(run browser listID types changes).selected] typed ↔
      "data".toList ∉ types[(run browser listID types changes).selected].keys browser ∧
      "__proto__".toList ∉ types[(run browser listID types changes).selected].keys browser ∧
      ("type".toList ∈ types[(run browser listID types changes).selected].keys browser →
        typed "type".toList =
          browser.toLowerCase types[(run browser listID types changes).selected].name) := by
  have hcurrent := current_run browser listID types changes
  have hshown := getSelection_eq hlaw hnames hcurrent.itemTypes hselected hlater
  apply safe_iff_of_reads hshown
  intro key hkey
  apply read_eq hlaw hnames hlist (Nat.zero_lt_of_lt hselected) changes typed _ hkey
  intro other hother
  rw [Form.keys, hshown, mem_itemType] at hother
  exact hkeys other hother.1

def sword (property : String) : Typed where
  properties := [(property.toList, "String".toList)]
  name := "Sword".toList
  name_ne := by decide

theorem sword_right :
    (run ascii "list".toList [sword "hp"] [0]).selected < 1 ∧
      Right ascii (run ascii "list".toList [sword "hp"] [0]) (sword "hp")
        (⟨[], []⟩ : Coloring.Appearance Unit).toValue fun key => key ++ key := by
  refine ⟨by decide, (sent_right_iff ascii "list".toList [sword "hp"] [0] (by decide)
    (⟨[], []⟩ : Coloring.Appearance Unit) fun key => key ++ key).mpr ⟨?_, ?_, ?_, ?_⟩⟩
  all_goals decide +kernel

/-- A property `type` takes the place of the item's type. -/
theorem type_not_right :
    ¬Right ascii (run ascii "list".toList [sword "Type"] [0]) (sword "Type")
      (⟨[], []⟩ : Coloring.Appearance Unit).toValue fun _ => "axe".toList := by
  rintro ⟨item, hitem, htype, -⟩
  have hcurrent := current_run ascii "list".toList [sword "Type"] [0]
  rw [hcurrent.written_type_iff hitem] at htype
  revert htype
  decide +kernel

end Starfall.Items
