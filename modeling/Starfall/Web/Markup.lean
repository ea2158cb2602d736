import Starfall.Web.Dump

/-! The strings of a console message go into the markup as they are.  Two messages that differ only
in strings have the same tags as long as each string is inert where it is put. -/

namespace Starfall.Components

open ProofKit.Transducers Starfall.Html

variable {N : Type} (num : Numbers N)

/-- A part whose strings are inert in its template. -/
structure Part.Plain (part : Part N) : Prop where
  name : ∃ name, interpolate num part.name = some name ∧ Text name
  colors : ∀ color ∈ part.colors, ∃ hex red green, color.toHex num = some hex ∧
    (interpolate num color.red = some red ∧ '\'' ∉ red) ∧
    (interpolate num color.green = some green ∧ '\'' ∉ green)

/-- The value of a property whose strings are inert where they are put, and whose string leaves are
not integers. -/
inductive Plain : Str → Value N → Prop
  | null {name : Str} : name ≠ appearance → Plain name .null
  | boolean {name : Str} (b : Bool) : Text name → Plain name (.boolean b)
  | number {name : Str} (n : N) : Text name → Plain name (.number n)
  | string {name s : Str} : Text name → parseInt s = none → Text s → Plain name (.string s)
  | array {name : Str} {items : List (Value N)} :
      name ≠ appearance → (∀ item ∈ items, ∀ i, Plain (decimal i) item) → Plain name (.array items)
  | object {name : Str} {properties : List (Str × Value N)} :
      name ≠ appearance → (∀ property ∈ properties, Plain property.1 property.2) →
        Plain name (.object properties)
  | component {obj : Value N} :
      obj.isObject → (∀ parts, model num obj = some parts → ∀ part ∈ parts, part.Plain num) →
        Plain appearance obj

/-- The values of two properties that differ only in strings, with the same parts where both are
appearances. -/
inductive Alike : Str → Str → Value N → Value N → Prop
  | null {name name' : Str} :
      name ≠ appearance → name' ≠ appearance → Alike name name' .null .null
  | boolean {name name' : Str} (b : Bool) : Alike name name' (.boolean b) (.boolean b)
  | number {name name' : Str} (n : N) : Alike name name' (.number n) (.number n)
  | string {name name' : Str} (s s' : Str) : Alike name name' (.string s) (.string s')
  | array {name name' : Str} {items items' : List (Value N)} :
      name ≠ appearance → name' ≠ appearance →
        List.Forall₂ (fun item item' => ∀ i, Alike (decimal i) (decimal i) item item')
          items items' → Alike name name' (.array items) (.array items')
  | object {name name' : Str} {properties properties' : List (Str × Value N)} :
      name ≠ appearance → name' ≠ appearance →
        List.Forall₂ (fun property property' =>
          Alike property.1 property'.1 property.2 property'.2) properties properties' →
          Alike name name' (.object properties) (.object properties')
  | component {obj obj' : Value N} :
      obj.isObject → obj'.isObject →
        Option.Rel (List.Forall₂ fun part part' => part.colors.length = part'.colors.length)
          (model num obj) (model num obj') → Alike appearance appearance obj obj'

namespace Message

structure Plain (msg : Message N) : Prop where
  name : Text msg.name
  nameValue : '\'' ∉ msg.name
  datetime : Text msg.datetime
  body : ∀ property ∈ msg.body, Components.Plain num property.1 property.2
  hex : ∀ hex, msg.hex = some hex → '<' ∉ hex
  maps : ∀ map ∈ msg.maps, Text map.name

structure Alike (msg msg' : Message N) : Prop where
  body : List.Forall₂ (fun property property' =>
    Components.Alike num property.1 property'.1 property.2 property'.2) msg.body msg'.body
  hex : msg.hex = msg'.hex
  maps : List.Forall₂ (fun map map' =>
    map.beginIdx = map'.beginIdx ∧ map.endIdx = map'.endIdx) msg.maps msg'.maps

end Message

theorem toUpper_eq {c d : Char} (h : c.toUpper = d) (hd : ¬d.isUpper) : c = d := by
  unfold Char.toUpper at h
  split at h
  · rename_i hlower
    subst h
    refine absurd (decide_eq_true ?_) hd
    have hval : 97 ≤ c.val.toNat ∧ c.val.toNat ≤ 122 := hlower
    have hdiff : ('A'.val - 'a'.val).toNat = 4294967264 := rfl
    have hA : 'A'.val.toNat = 65 := rfl
    have hZ : 'Z'.val.toNat = 90 := rfl
    rw [ge_iff_le, UInt32.le_iff_toNat_le, UInt32.le_iff_toNat_le, UInt32.toNat_add, hdiff, hA, hZ]
    omega
  · exact h

theorem plain_ne {c d : Char} (h : c.isAlphanum ∨ c ∈ ['.', '+', '-']) (hd : d ∈ ['<', '\'']) :
    c ≠ d := by
  rintro rfl
  rcases List.mem_cons.mp hd with rfl | hd
  · exact absurd h (by decide)
  · rw [List.mem_singleton.mp hd] at h
    exact absurd h (by decide)

namespace Numbers

theorem decimal_plain (n : N) {c : Char} (hc : c ∈ ['<', '\'']) : c ∉ num.decimal n :=
  fun h => plain_ne (num.plain n c (List.mem_append_left _ h)) hc rfl

theorem hexadecimal_plain (n : N) {c : Char} (hc : c ∈ ['<', '\'']) : c ∉ num.hexadecimal n :=
  fun h => plain_ne (num.plain n c (List.mem_append_right _ h)) hc rfl

end Numbers

theorem toUpperCase_plain {s : Str} (h : '<' ∉ s) : '<' ∉ toUpperCase s := by
  intro hmem
  obtain ⟨c, hc, hupper⟩ := List.mem_map.mp hmem
  rw [toUpper_eq hupper (by decide)] at hc
  exact h hc

theorem integerTemplate_reads :
    positions integerTemplate = [(.hexadecimal, some .text), (.decimal, some .text)] ∧
      html.after .data (Piece.fill (fun _ => []) integerTemplate) = .data := by
  rw [integerTemplate]
  repeat rw [String.toList_ofList]
  decide +kernel

theorem itemTemplate_reads : positions itemTemplate = [((), some .text)] ∧
    html.after .data (Piece.fill (fun _ => []) itemTemplate) = .data := by
  rw [itemTemplate]
  repeat rw [String.toList_ofList]
  decide +kernel

theorem collapsibleTemplate_reads : positions collapsibleTemplate = [((), some .text)] ∧
    html.after .data (Piece.fill (fun _ => []) collapsibleTemplate) = .data := by
  rw [collapsibleTemplate]
  repeat rw [String.toList_ofList]
  decide +kernel

theorem integer_alike (value : N) :
    html.Alike .data (renderInteger num value)
      (Piece.fill (fun _ => []) integerTemplate) .data := by
  refine alike_template ?_ integerTemplate_reads.2
  rw [integerTemplate_reads.1, List.forall_mem_cons, List.forall_mem_singleton]
  exact ⟨text_plain (toUpperCase_plain (num.hexadecimal_plain value (by decide))),
    text_plain (toUpperCase_plain (num.decimal_plain value (by decide)))⟩

theorem item_alike {s : Str} (h : Text s) :
    html.Alike .data (Piece.fill (fun _ => s) itemTemplate)
      (Piece.fill (fun _ => []) itemTemplate) .data := by
  refine alike_template ?_ itemTemplate_reads.2
  rw [itemTemplate_reads.1, List.forall_mem_singleton]
  exact h

theorem collapsible_alike {name : Str} (h : Text name) :
    html.Alike .data (Piece.fill (fun _ => name) collapsibleTemplate)
      (Piece.fill (fun _ => []) collapsibleTemplate) .data := by
  refine alike_template ?_ collapsibleTemplate_reads.2
  rw [collapsibleTemplate_reads.1, List.forall_mem_singleton]
  exact h

theorem closing_alike : html.Alike .data "</ul></div>".toList "</ul></div>".toList .data := by
  refine alike_markup ?_
  rewrite [String.toList_ofList]
  decide +kernel

theorem Plain.name {name : Str} {value : Value N} (h : Plain num name value)
    (hleaf : ¬value.isObject) : Text name := by
  cases h with
  | boolean _ hname => exact hname
  | number _ hname => exact hname
  | string hname => exact hname
  | null => exact absurd rfl hleaf
  | array => exact absurd rfl hleaf
  | object => exact absurd rfl hleaf
  | component hobject => exact absurd hobject hleaf

theorem Plain.string_text {name s : Str} (h : Plain num name (.string s)) :
    parseInt s = none ∧ Text s := by
  cases h with
  | string _ hint htext => exact ⟨hint, htext⟩
  | component hobject => cases hobject

theorem Alike.isObject_eq {name name' : Str} {value value' : Value N}
    (h : Alike num name name' value value') : value.isObject = value'.isObject := by
  cases h with
  | component hobject hobject' => exact hobject.trans hobject'.symm
  | _ => rfl

theorem primitive_alike {name name' : Str} {value value' : Value N}
    (h : Alike num name name' value value') (hleaf : ¬value.isObject)
    (hplain : Plain num name value) (hplain' : Plain num name' value') :
    html.Alike .data (renderPrimitive num value) (renderPrimitive num value') .data := by
  cases h with
  | boolean b =>
    have := @item_alike "boolean".toList (text_plain (by decide))
    exact this.trans this.symm
  | number n => exact (integer_alike num n).trans (integer_alike num n).symm
  | string s s' =>
    obtain ⟨hint, htext⟩ := hplain.string_text
    obtain ⟨hint', htext'⟩ := hplain'.string_text
    rw [renderPrimitive, renderPrimitive, hint, hint']
    exact (item_alike htext).trans (item_alike htext').symm
  | null => exact absurd rfl hleaf
  | array => exact absurd rfl hleaf
  | object => exact absurd rfl hleaf
  | component hobject => exact absurd hobject hleaf

/-- The name of a leaf, and the leaf. -/
theorem leaf_alike {name name' : Str} {value value' : Value N}
    (h : Alike num name name' value value') (hleaf : ¬value.isObject)
    (hplain : Plain num name value) (hplain' : Plain num name' value') :
    html.Alike .data (renderCollapsible num name value) (renderCollapsible num name' value')
      .data := by
  have hname := collapsible_alike (hplain.name num hleaf)
  have hname' := collapsible_alike (hplain'.name num (h.isObject_eq ▸ hleaf))
  have inner := primitive_alike num h hleaf hplain hplain'
  exact ((hname.trans hname'.symm).append inner).append closing_alike

theorem partTemplate_reads :
    positions partTemplate = [(.partName, some .text), (.toggle, some .value)] ∧
      html.after .data (Piece.fill (fun _ => []) partTemplate) = .data := by
  rw [partTemplate]
  repeat rw [String.toList_ofList]
  decide +kernel

theorem colorTemplate_reads : (∀ x ∈ positions colorTemplate, x.2 = some .value) ∧
    html.after .data (Piece.fill (fun _ => []) colorTemplate) = .data := by
  rw [colorTemplate]
  repeat rw [String.toList_ofList]
  decide +kernel

theorem appearanceTemplate_reads :
    positions appearanceTemplate = [(.root, some .value), (.anchor, some .value)] ∧
      html.after .data (Piece.fill (fun _ => []) appearanceTemplate) = .data := by
  rw [appearanceTemplate]
  repeat rw [String.toList_ofList]
  decide +kernel

theorem component_plain {value : Option (Value N)} {hex : Str}
    (h : component num value = some hex) : '\'' ∉ hex := by
  obtain ⟨s, -, h⟩ := Option.bind_eq_some_iff.mp h
  have hplain := num.hexadecimal_plain (num.ofInt ((parseInt s).getD 0))
    (List.mem_of_mem_tail (List.mem_singleton_self '\''))
  cases h
  split
  · rw [List.mem_cons, not_or]
    exact ⟨by decide, hplain⟩
  · exact hplain

theorem toHex_plain {color : Color N} {hex : Str} (h : color.toHex num = some hex) :
    '\'' ∉ hex := by
  obtain ⟨red, hred, h⟩ := Option.bind_eq_some_iff.mp h
  obtain ⟨green, hgreen, h⟩ := Option.bind_eq_some_iff.mp h
  obtain ⟨blue, hblue, h⟩ := Option.bind_eq_some_iff.mp h
  cases h
  rw [List.mem_append, List.mem_append, List.mem_cons, not_or, not_or, not_or]
  exact ⟨⟨⟨by decide, component_plain num hred⟩, component_plain num hgreen⟩,
    component_plain num hblue⟩

theorem color_alike {color : Color N} {li hex red green : Str} (hli : '\'' ∉ li)
    (hhex : '\'' ∉ hex) (hred : '\'' ∉ red) (hgreen : '\'' ∉ green) :
    html.Alike .data (Piece.fill (color.fillings li hex red green) colorTemplate)
      (Piece.fill (fun _ => []) colorTemplate) .data := by
  refine alike_template (fun x hx => ?_) colorTemplate_reads.2
  have hanchor : '\'' ∉ color.anchor li := by
    simp [Color.anchor, hli, decimal_plain]
  rw [colorTemplate_reads.1 x hx]
  cases x.1 <;> simp [Color.fillings, Inert, *]

/-- The markup of a part with so many colors, without its strings. -/
def partMarkup (colors : Nat) : Str :=
  Piece.fill (fun _ => []) partTemplate ++
    (List.replicate colors (Piece.fill (fun _ => []) colorTemplate)).flatten ++ partEnd

theorem colors_alike {li : Str} (hli : '\'' ∉ li) {colors : List (Color N)}
    (h : ∀ color ∈ colors, ∃ hex red green, color.toHex num = some hex ∧
      (interpolate num color.red = some red ∧ '\'' ∉ red) ∧
      (interpolate num color.green = some green ∧ '\'' ∉ green)) :
    ∃ rendered, colors.mapM (Color.render num li) = some rendered ∧
      html.Alike .data rendered.flatten
        (List.replicate colors.length (Piece.fill (fun _ => []) colorTemplate)).flatten .data := by
  induction colors with
  | nil => exact ⟨[], rfl, alike_markup rfl⟩
  | cons color colors ih =>
    rw [List.forall_mem_cons] at h
    obtain ⟨⟨hex, red, green, hhex, ⟨hred, hplain⟩, ⟨hgreen, hplain'⟩⟩, hrest⟩ := h
    obtain ⟨rendered, hrendered, halike⟩ := ih hrest
    have first := @color_alike N color li _ _ _ hli (toHex_plain num hhex) hplain hplain'
    refine ⟨_ :: rendered, ?_, first.append halike⟩
    rw [List.mapM_cons, hrendered, Color.render, hhex, hred, hgreen]
    rfl

theorem part_alike {baseID : Str} (hbase : '\'' ∉ baseID) {part : Part N}
    (h : part.Plain num) :
    ∃ rendered, part.render num baseID = some rendered ∧
      html.Alike .data rendered (partMarkup part.colors.length) .data := by
  have hli : '\'' ∉ part.li baseID := by
    simp [Part.li, hbase, decimal_plain]
  obtain ⟨name, hname, htext⟩ := h.name
  obtain ⟨colors, hcolors, halike⟩ := colors_alike num hli h.colors
  have before : html.Alike .data (Piece.fill (Part.fillings name (part.li baseID)) partTemplate)
      (Piece.fill (fun _ => []) partTemplate) .data := by
    refine alike_template ?_ partTemplate_reads.2
    rw [partTemplate_reads.1, List.forall_mem_cons, List.forall_mem_singleton]
    exact ⟨htext, by simp [Part.fillings, Inert, hli]⟩
  have behind : html.Alike .data partEnd partEnd .data := by
    refine alike_markup ?_
    unfold partEnd
    rewrite [String.toList_ofList]
    decide +kernel
  have whole := (before.append halike).append behind
  rw [← partMarkup] at whole
  refine ⟨_, ?_, whole⟩
  rw [Part.render, hname, Option.bind_eq_bind, Option.bind_some, hcolors]
  rfl

theorem view_alike {baseID : Str} (hbase : '\'' ∉ baseID) {obj obj' : Value N}
    (h : Option.Rel (List.Forall₂ fun part part' => part.colors.length = part'.colors.length)
      (model num obj) (model num obj'))
    (hplain : ∀ parts, model num obj = some parts → ∀ part ∈ parts, part.Plain num)
    (hplain' : ∀ parts, model num obj' = some parts → ∀ part ∈ parts, part.Plain num) :
    Option.Rel (html.Alike .data · · .data) (view num baseID obj) (view num baseID obj') := by
  rw [view, view]
  refine rel_bind (rel_and h hplain hplain') fun parts parts' hparts => ?_
  obtain ⟨hparts, hplain, hplain'⟩ := hparts
  refine rel_bind (rel_mapM (forall₂_imp_of_mem hparts hplain hplain' ?_))
    fun _ _ hrendered => .some (Transducer.Alike.flatten hrendered)
  intro part part' hpart hpart' hcolors
  obtain ⟨rendered, hrendered, halike⟩ := part_alike num hbase hpart
  obtain ⟨rendered', hrendered', halike'⟩ := part_alike num hbase hpart'
  rw [hrendered, hrendered']
  rw [hcolors] at halike
  exact .some (halike.trans halike'.symm)

/-- The results of two renderings that are alike, and go on with the same counter. -/
def SameMarkup (x y : Option (Str × Nat)) : Prop :=
  Option.Rel (fun a b => html.Alike .data a.1 b.1 .data ∧ a.2 = b.2) x y

theorem appearance_alike {idString : Str} (hid : '\'' ∉ idString) (subCounter : Nat)
    {obj obj' : Value N}
    (h : Option.Rel (html.Alike .data · · .data) (view num idString obj)
      (view num idString obj')) :
    SameMarkup (renderAppearance num idString obj subCounter)
      (renderAppearance num idString obj' subCounter) := by
  have before : html.Alike .data
      "<ul data-role='listview' data-inset='true' data-divider-theme='d'>".toList
      "<ul data-role='listview' data-inset='true' data-divider-theme='d'>".toList .data := by
    refine alike_markup ?_
    rewrite [String.toList_ofList]
    decide +kernel
  have behind : html.Alike .data
      (Piece.fill (appearanceIDs idString subCounter) appearanceTemplate)
      (Piece.fill (fun _ => []) appearanceTemplate) .data := by
    refine alike_template ?_ appearanceTemplate_reads.2
    rw [appearanceTemplate_reads.1, List.forall_mem_cons, List.forall_mem_singleton]
    constructor <;> simp [appearanceIDs, Inert, hid, decimal_plain]
  refine rel_bind h fun rendered rendered' halike => .some ⟨?_, rfl⟩
  exact (before.append halike).append (behind.trans behind.symm)

theorem SameMarkup.inTurn {x y : Option (Str × Nat)} {f g : Nat → Option (Str × Nat)}
    (h : SameMarkup x y) (hfg : ∀ subCounter, SameMarkup (f subCounter) (g subCounter)) :
    SameMarkup (inTurn x f) (inTurn y g) := by
  refine rel_bind h fun a b hab => ?_
  obtain ⟨halike, hcounter⟩ := hab
  rw [hcounter]
  exact rel_bind (hfg b.2) fun c d hcd => .some ⟨halike.append hcd.1, hcd.2⟩

/-- An object under the name of an appearance. -/
theorem renderData_appearance (idString : Str) (subCounter : Nat) {obj : Value N}
    (hobject : obj.isObject) :
    renderData num idString appearance subCounter obj =
      renderAppearance num idString obj subCounter := by
  cases obj with
  | null => rw [renderData, if_pos rfl]
  | array items => rw [renderData, if_pos rfl]
  | object properties => rw [renderData, if_pos rfl]
  | boolean b => cases hobject
  | number n => cases hobject
  | string s => cases hobject

theorem Plain.parts {obj : Value N} (h : Plain num appearance obj) (hobject : obj.isObject) :
    ∀ parts, model num obj = some parts → ∀ part ∈ parts, part.Plain num := by
  cases h with
  | component _ hparts => exact hparts
  | null hname => exact absurd rfl hname
  | array hname => exact absurd rfl hname
  | object hname => exact absurd rfl hname
  | boolean => cases hobject
  | number => cases hobject
  | string => cases hobject

theorem Plain.items {name : Str} {items : List (Value N)} (h : Plain num name (.array items))
    (hname : name ≠ appearance) : ∀ item ∈ items, ∀ i, Plain num (decimal i) item := by
  cases h with
  | array _ hitems => exact hitems
  | component => exact absurd rfl hname

theorem Plain.properties {name : Str} {properties : List (Str × Value N)}
    (h : Plain num name (.object properties)) (hname : name ≠ appearance) :
    ∀ property ∈ properties, Plain num property.1 property.2 := by
  cases h with
  | object _ hproperties => exact hproperties
  | component => exact absurd rfl hname

theorem appearanceData_alike {idString : Str} (hid : '\'' ∉ idString) (subCounter : Nat)
    {obj obj' : Value N} (hobject : obj.isObject) (hobject' : obj'.isObject)
    (h : Option.Rel (List.Forall₂ fun part part' => part.colors.length = part'.colors.length)
      (model num obj) (model num obj'))
    (hplain : Plain num appearance obj) (hplain' : Plain num appearance obj') :
    SameMarkup (renderData num idString appearance subCounter obj)
      (renderData num idString appearance subCounter obj') := by
  rw [renderData_appearance num idString subCounter hobject,
    renderData_appearance num idString subCounter hobject']
  refine appearance_alike num hid subCounter (view_alike num hid h ?_ ?_)
  · exact hplain.parts num hobject
  · exact hplain'.parts num hobject'

mutual

theorem renderData_alike {idString : Str} (hid : '\'' ∉ idString) {name name' : Str}
    (subCounter : Nat) : ∀ {value value' : Value N}, Alike num name name' value value' →
      Plain num name value → Plain num name' value' →
        SameMarkup (renderData num idString name subCounter value)
          (renderData num idString name' subCounter value')
  | .null, _, h, hplain, hplain' => by
    cases h with
    | null hname hname' =>
      rw [renderData, renderData, if_neg hname, if_neg hname']
      exact .some ⟨alike_markup rfl, rfl⟩
    | component hobject hobject' hparts =>
      exact appearanceData_alike num hid subCounter hobject hobject' hparts hplain hplain'
  | .array items, _, h, hplain, hplain' => by
    cases h with
    | array hname hname' hitems =>
      rw [renderData, renderData, if_neg hname, if_neg hname']
      exact renderItems_alike hid 0 subCounter hitems (hplain.items num hname)
        (hplain'.items num hname')
    | component hobject hobject' hparts =>
      exact appearanceData_alike num hid subCounter hobject hobject' hparts hplain hplain'
  | .object properties, _, h, hplain, hplain' => by
    cases h with
    | object hname hname' hproperties =>
      rw [renderData, renderData, if_neg hname, if_neg hname']
      exact renderProperties_alike hid subCounter hproperties (hplain.properties num hname)
        (hplain'.properties num hname')
    | component hobject hobject' hparts =>
      exact appearanceData_alike num hid subCounter hobject hobject' hparts hplain hplain'
  | .boolean b, _, h, hplain, hplain' => by
    have hleaf := leaf_alike num h nofun hplain hplain'
    cases h with
    | boolean => exact .some ⟨hleaf, rfl⟩
    | component hobject => cases hobject
  | .number n, _, h, hplain, hplain' => by
    have hleaf := leaf_alike num h nofun hplain hplain'
    cases h with
    | number => exact .some ⟨hleaf, rfl⟩
    | component hobject => cases hobject
  | .string s, _, h, hplain, hplain' => by
    have hleaf := leaf_alike num h nofun hplain hplain'
    cases h with
    | string => exact .some ⟨hleaf, rfl⟩
    | component hobject => cases hobject

theorem renderItems_alike {idString : Str} (hid : '\'' ∉ idString) (i subCounter : Nat) :
    ∀ {items items' : List (Value N)},
      List.Forall₂ (fun item item' => ∀ i, Alike num (decimal i) (decimal i) item item')
        items items' →
      (∀ item ∈ items, ∀ i, Plain num (decimal i) item) →
      (∀ item ∈ items', ∀ i, Plain num (decimal i) item) →
        SameMarkup (renderItems num idString i subCounter items)
          (renderItems num idString i subCounter items')
  | [], _, h, _, _ => by
    cases h
    rw [renderItems]
    exact .some ⟨alike_markup rfl, rfl⟩
  | value :: items, _, h, hplain, hplain' => by
    cases h with
    | cons first rest =>
      rw [List.forall_mem_cons] at hplain hplain'
      rw [renderItems, renderItems]
      refine .inTurn ?_ fun subCounter => ?_
      · exact renderData_alike hid subCounter (first i) (hplain.1 i) (hplain'.1 i)
      · exact renderItems_alike hid (i + 1) subCounter rest hplain.2 hplain'.2

theorem renderProperties_alike {idString : Str} (hid : '\'' ∉ idString) (subCounter : Nat) :
    ∀ {properties properties' : List (Str × Value N)},
      List.Forall₂ (fun property property' =>
        Alike num property.1 property'.1 property.2 property'.2) properties properties' →
      (∀ property ∈ properties, Plain num property.1 property.2) →
      (∀ property ∈ properties', Plain num property.1 property.2) →
        SameMarkup (renderProperties num idString subCounter properties)
          (renderProperties num idString subCounter properties')
  | [], _, h, _, _ => by
    cases h
    rw [renderProperties]
    exact .some ⟨alike_markup rfl, rfl⟩
  | (name, value) :: properties, _, h, hplain, hplain' => by
    cases h with
    | @cons _ property _ _ first rest =>
      rw [List.forall_mem_cons] at hplain hplain'
      rw [renderProperties, renderProperties]
      refine .inTurn ?_ fun subCounter => ?_
      · exact renderData_alike hid subCounter first hplain.1 hplain'.1
      · exact renderProperties_alike hid subCounter rest hplain.2 hplain'.2

end

theorem messageTemplate_reads :
    positions messageTemplate = [(.nameValue, some .value), (.id, some .value),
        (.scale, some .value), (.name, some .text), (.datetime, some .text)] ∧
      html.after .data (Piece.fill (fun _ => []) messageTemplate) = .data := by
  rw [messageTemplate]
  repeat rw [String.toList_ofList]
  decide +kernel

theorem head_alike {idString : Str} (hid : '\'' ∉ idString) {msg : Message N}
    (h : msg.Plain num) :
    html.Alike .data (Piece.fill (msg.fillings num idString) messageTemplate)
      (Piece.fill (fun _ => []) messageTemplate) .data := by
  refine alike_template ?_ messageTemplate_reads.2
  rw [messageTemplate_reads.1, List.forall_mem_cons, List.forall_mem_cons, List.forall_mem_cons,
    List.forall_mem_cons, List.forall_mem_singleton]
  exact ⟨h.nameValue, hid, num.decimal_plain _ (by decide), h.name, h.datetime⟩

theorem message_alike (counter : Nat) {msg msg' : Message N} (h : msg.Alike num msg')
    (hplain : msg.Plain num) (hplain' : msg'.Plain num) :
    Option.Rel (html.Alike .data · · .data) (renderMessage num counter msg)
      (renderMessage num counter msg') := by
  have hid : '\'' ∉ "message_".toList ++ decimal counter := by
    rw [List.mem_append, not_or]
    exact ⟨by decide, decimal_plain counter⟩
  have head := (head_alike num hid hplain).trans (head_alike num hid hplain').symm
  have body := renderProperties_alike num hid 0 h.body hplain.body hplain'.body
  have foot := foot_alike hid h.maps hplain.hex hplain.maps hplain'.maps
  rw [renderMessage, renderMessage, ← h.hex]
  refine rel_bind body fun a b hab => rel_bind foot fun c d hcd => .some ?_
  exact ((head.append hab.1).append hcd).append closing_alike

theorem render_alike (counter : Nat) {data data' : List (Message N)}
    (h : List.Forall₂ (Message.Alike num) data data') (hplain : ∀ msg ∈ data, msg.Plain num)
    (hplain' : ∀ msg ∈ data', msg.Plain num) :
    Option.Rel (html.Alike .data · · .data) (render num counter data)
      (render num counter data') := by
  induction h generalizing counter with
  | nil => exact .some (alike_markup rfl)
  | cons first _ ih =>
    rw [List.forall_mem_cons] at hplain hplain'
    rw [render, render]
    refine rel_bind (message_alike num counter first hplain.1 hplain'.1) fun a b hab => ?_
    exact rel_bind (ih (counter + 1) hplain.2 hplain'.2) fun c d hcd => .some (hab.append hcd)

/-- The tags of the page do not depend on the strings of its messages when these are inert. -/
theorem render_tags (counter : Nat) {data data' : List (Message N)}
    (h : List.Forall₂ (Message.Alike num) data data') (hplain : ∀ msg ∈ data, msg.Plain num)
    (hplain' : ∀ msg ∈ data', msg.Plain num) :
    (render num counter data).map tags = (render num counter data').map tags :=
  rel_map (render_alike num counter h hplain hplain') fun _ _ halike => halike.written

/-- A message whose body is one property. -/
def oneProperty (name key : Str) (value : Value Int) : Message Int :=
  ⟨name, "2013-07-01 12:00:00".toList, [(key, value)], none, []⟩

/-- An appearance of one part, in a style of the given name. -/
def helmet (style : Str) : Value Int :=
  .object [
    ("styles".toList, .object [("style".toList, .object [("name".toList, .string style)])]),
    ("slots".toList, .object [("slot".toList, .object [("mesh".toList, .object [
      ("part".toList, .object [("name".toList, .string "Helmet".toList)])])])])]

def page (msg : Message Int) : Option (List Tag) := (render integers 0 [msg]).map tags

/-- Names and strings that are inert, one of them with a `<`. -/
theorem inert_tags :
    page (oneProperty "Head".toList "user".toList (.string "a".toList)) =
      page (oneProperty "Item".toList "key".toList (.string "a < b".toList)) := by
  refine render_tags integers 0 (.cons ⟨.cons (.string _ _) .nil, rfl, .nil⟩ .nil) ?_ ?_
  · rw [List.forall_mem_singleton]
    refine ⟨by decide +kernel, by decide, by decide +kernel, ?_, nofun, nofun⟩
    rw [oneProperty, List.forall_mem_singleton]
    exact .string (by decide +kernel) (by decide +kernel) (by decide +kernel)
  · rw [List.forall_mem_singleton]
    refine ⟨by decide +kernel, by decide, by decide +kernel, ?_, nofun, nofun⟩
    rw [oneProperty, List.forall_mem_singleton]
    exact .string (by decide +kernel) (by decide +kernel) (by decide +kernel)

/-- A string leaf that is a tag, a name that ends its attribute, a style that has another name, and
an object under the name of an appearance. -/
theorem strings_injected :
    (parseInt "<b>".toList = none ∧ parseInt "b".toList = none ∧
      page (oneProperty "Head".toList "user".toList (.string "<b>".toList)) ≠
        page (oneProperty "Head".toList "user".toList (.string "b".toList))) ∧
    page (oneProperty "a' b='".toList "user".toList .null) ≠
      page (oneProperty "a".toList "user".toList .null) ∧
    page (oneProperty "Head".toList appearance (helmet "default".toList)) ≠
      page (oneProperty "Head".toList appearance (helmet "other".toList)) ∧
    page (oneProperty "Head".toList appearance (.object [])) ≠
      page (oneProperty "Head".toList "user".toList (.object [])) := by
  refine ⟨⟨by decide +kernel, by decide +kernel, ?_⟩, ?_, ?_, ?_⟩
  · simp only [page, render, renderMessage, oneProperty, renderProperties, inTurn, renderData,
      renderFoot, renderCollapsible, renderPrimitive, messageTemplate, collapsibleTemplate,
      itemTemplate]
    repeat rw [String.toList_ofList]
    decide +kernel
  · simp only [page, render, renderMessage, oneProperty, renderProperties, inTurn, renderData,
      renderFoot, messageTemplate]
    repeat rw [String.toList_ofList]
    decide +kernel
  · simp only [page, render, renderMessage, oneProperty, renderProperties, inTurn, renderData,
      renderFoot, messageTemplate, helmet, renderAppearance, view, appearanceTemplate, if_true]
    unfold Part.render partTemplate partEnd
    repeat rw [String.toList_ofList]
    decide +kernel
  · simp only [page, render, renderMessage, oneProperty, renderProperties, inTurn, renderData,
      renderFoot, messageTemplate, renderAppearance, view, appearanceTemplate, if_true]
    repeat rw [String.toList_ofList]
    decide +kernel

end Starfall.Components
