import Starfall.Web.Coloring

/-! The appearances of `Coloring` as the objects that the page parses.  The constructor of `Model`
makes the same parts and colors of them. -/

namespace Starfall.Coloring

open Components (Value decimal integers eachObject first parseInt isSpace digit get looselyEqual)
open ProofKit.Folds

/-- The properties of `_.arrayToObject`, of an array of objects that have one property each. -/
def arrayToObject (key : Str) (elems : List (Value Int)) : List (Str × Value Int) :=
  match elems with
  | [elem] => [(key, elem)]
  | elems => elems.mapIdx fun i elem => (decimal i, .object [(key, elem)])

theorem digit_facts {c : Char} (h : c.isDigit) :
    isSpace c = false ∧ c ∉ ['-', '+', 'x', 'X'] ∧ (digit 10 c).isSome := by
  have hdigits : ∀ n < 10, isSpace (Char.ofNat (48 + n)) = false ∧
      Char.ofNat (48 + n) ∉ ['-', '+', 'x', 'X'] ∧ (digit 10 (Char.ofNat (48 + n))).isSome := by
    decide
  obtain ⟨hle, hge⟩ : 48 ≤ c.toNat ∧ c.toNat ≤ 57 := Char.isDigit_iff_toNat.mp h
  have hc : Char.ofNat (48 + (c.toNat - 48)) = c := by
    rw [Nat.add_sub_cancel' hle, Char.ofNat_toNat]
  rw [← hc]
  exact hdigits _ (by omega)

theorem parseInt_digits {c : Char} {rest : List Char} (h : ∀ d ∈ c :: rest, d.isDigit) :
    (parseInt (c :: rest)).isSome := by
  rw [List.forall_mem_cons] at h
  obtain ⟨hspace, hsign, hvalue⟩ := digit_facts h.1
  have hdrop : (c :: rest).dropWhile isSpace = c :: rest :=
    List.dropWhile_cons_of_neg (by simp [hspace])
  have hunsigned : ¬((c :: rest).head? = some '-' ∨ (c :: rest).head? = some '+') := by
    simp at hsign ⊢
    exact ⟨hsign.1, hsign.2.1⟩
  have hdecimal : ¬((c :: rest).take 2 = ['0', 'x'] ∨ (c :: rest).take 2 = ['0', 'X']) := by
    cases rest with
    | nil => simp
    | cons d rest =>
      have hd := (digit_facts (h.2 d List.mem_cons_self)).2.1
      simp at hd ⊢
      exact ⟨fun _ => hd.2.2.1, fun _ => hd.2.2.2⟩
  have hdigits : (((c :: rest).map (digit 10)).takeWhile Option.isSome) ≠ [] := by
    rw [List.map_cons, List.takeWhile_cons_of_pos hvalue]
    exact List.cons_ne_nil _ _
  unfold parseInt
  simp only [hdrop, if_neg hunsigned, hdecimal, if_false, if_neg hdigits]
  rfl

theorem parseInt_decimal (n : Nat) : (parseInt (decimal n)).isSome := by
  have hdigit : ∀ c ∈ decimal n, c.isDigit := fun c hc =>
    Nat.isDigit_of_mem_toDigits (by decide) (by decide) hc
  cases hdecimal : decimal n with
  | nil => exact absurd hdecimal Nat.toDigits_ne_nil
  | cons c rest =>
    rw [hdecimal] at hdigit
    exact parseInt_digits hdigit

/-- What `_.eachObject` visits for one property. -/
def visited (property : Str × Value Int) : Option (List (Option (Value Int))) :=
  if (parseInt property.1).isSome then first integers property.2
  else some (if property.2.isObject then [some property.2] else [])

theorem eachObject_object (properties : List (Str × Value Int)) :
    eachObject integers (some (.object properties)) = properties.flatMapM visited := rfl

/-- An object with one property that has a string, under whatever name. -/
theorem first_single {N : Type} (num : Components.Numbers N) (key : Str) {elem : Value N}
    (h : elem.isObject) (htext : key = "length".toList → (elem.toText num).isSome) :
    first num (.object [(key, elem)]) = some [some elem] := by
  have hlength : Components.loopLength num ([(key, elem)].lookup "length".toList) = some none := by
    by_cases hkey : key = "length".toList
    · subst hkey
      obtain ⟨text, htext⟩ := Option.isSome_iff_exists.mp (htext rfl)
      rw [List.lookup_cons_self]
      cases elem <;> simp_all [Components.loopLength, Value.isObject]
    · rw [List.lookup_cons, beq_eq_false_iff_ne.mpr (Ne.symm hkey)]
      rfl
  rw [first, hlength]
  rfl

theorem visited_mapIdx {f : Nat → Value Int → Str × Value Int} {elems : List (Value Int)}
    (h : ∀ i, ∀ elem ∈ elems, visited (f i elem) = some [some elem]) :
    (elems.mapIdx f).flatMapM visited = some (elems.map some) := by
  induction elems generalizing f with
  | nil => rfl
  | cons elem elems ih =>
    rw [List.mapIdx_cons, List.flatMapM_cons, h 0 elem List.mem_cons_self, List.map_cons,
      ih fun i elem helem => h (i + 1) elem (List.mem_cons_of_mem _ helem)]
    rfl

/-- A loop over what `_.arrayToObject` made of an array visits the array. -/
theorem visited_arrayToObject {key : Str} (hkey : (parseInt key).isSome = false)
    (hlength : key ≠ "length".toList) {elems : List (Value Int)}
    (helems : ∀ elem ∈ elems, elem.isObject) :
    (arrayToObject key elems).flatMapM visited = some (elems.map some) := by
  have hindexed : ∀ i, ∀ elem ∈ elems,
      visited (decimal i, .object [(key, elem)]) = some [some elem] := by
    intro i elem helem
    rw [visited, if_pos (parseInt_decimal i)]
    exact first_single integers key (helems elem helem) fun hkey => absurd hkey hlength
  rcases elems with _ | ⟨elem, _ | ⟨second, rest⟩⟩
  · rfl
  · simp [arrayToObject, visited, hkey, helems elem List.mem_cons_self]
  · exact visited_mapIdx hindexed

/-- An object of the given children, with other properties that are texts. -/
def node (key : Str) (children : List (Value Int)) (texts : List (Str × Str)) : Value Int :=
  .object (arrayToObject key children ++ texts.map fun (name, text) => (name, .string text))

theorem eachObject_node {key : Str} (hkey : (parseInt key).isSome = false)
    (hlength : key ≠ "length".toList) {children : List (Value Int)}
    (hchildren : ∀ child ∈ children, child.isObject)
    {texts : List (Str × Str)} (htexts : ∀ text ∈ texts, (parseInt text.1).isSome = false) :
    eachObject integers (some (node key children texts)) = some (children.map some) := by
  have hnone : (texts.map fun (name, text) => (name, (Value.string text : Value Int))).flatMapM
      visited = some [] := by
    rw [flatMapM_some (g := fun _ => []), List.flatMap_eq_nil_iff.mpr fun _ _ => rfl]
    intro property hproperty
    obtain ⟨text, htext, rfl⟩ := List.mem_map.mp hproperty
    simp [visited, htexts text htext, Value.isObject]
  rw [node, eachObject_object, flatMapM_append, visited_arrayToObject hkey hlength hchildren, hnone]
  simp

variable {X : Type}

def Material.toValue (material : Material X) : Value Int :=
  node [] [] [("color".toList, material.color), ("name".toList, material.name)]

def Part.toValue (part : Part X) : Value Int :=
  node "material".toList (part.materials.map (·.toValue)) [("name".toList, part.name)]

def Mesh.toValue (mesh : Mesh X) : Value Int :=
  node "part".toList (mesh.parts.map (·.toValue)) [("name".toList, mesh.name)]

def Slot.toValue (slot : Slot X) : Value Int :=
  node "mesh".toList (slot.meshes.map (·.toValue)) [("name".toList, slot.name)]

def StyleColor.toValue (styleColor : StyleColor) : Value Int :=
  node [] [] [("red".toList, styleColor.red), ("green".toList, styleColor.green),
    ("blue".toList, styleColor.blue), ("number".toList, styleColor.number)]

def Style.toValue (style : Style) : Value Int :=
  node "color".toList (style.colors.map (·.toValue)) [("name".toList, style.name)]

/-- An appearance as `data` returns it. -/
def Appearance.toValue (appearance : Appearance X) : Value Int :=
  .object [("slots".toList, node "slot".toList (appearance.slots.map (·.toValue)) []),
    ("styles".toList, node "style".toList (appearance.styles.map (·.toValue)) [])]

/-- A loop over an object of the given list visits the list. -/
theorem eachObject_map {A : Type} {toValue : A → Value Int} (hobject : ∀ a, (toValue a).isObject)
    {key : Str} (hkey : (parseInt key).isSome = false) (hlength : key ≠ "length".toList)
    (as : List A) {texts : List (Str × Str)}
    (htexts : ∀ text ∈ texts, (parseInt text.1).isSome = false) :
    eachObject integers (some (node key (as.map toValue) texts)) =
      some (as.map fun a => some (toValue a)) := by
  have hchildren : ∀ child ∈ as.map toValue, child.isObject := by
    intro child hchild
    obtain ⟨a, -, rfl⟩ := List.mem_map.mp hchild
    exact hobject a
  rw [eachObject_node hkey hlength hchildren htexts, List.map_map]
  rfl

theorem unnumbered_name (name : Str) :
    ∀ text ∈ [("name".toList, name)], (parseInt text.1).isSome = false := by
  rw [List.forall_mem_singleton]
  show (parseInt "name".toList).isSome = false
  decide

theorem lookup_arrayToObject {key name : Str} (hname : (parseInt name).isSome = false)
    (hkey : name ≠ key) (children : List (Value Int)) :
    (arrayToObject key children).lookup name = none := by
  have hindexed : (children.mapIdx fun i child =>
      (decimal i, (Value.object [(key, child)] : Value Int))).lookup name = none := by
    rw [List.lookup_eq_none_iff]
    intro property hproperty
    obtain ⟨i, hi, rfl⟩ := List.mem_mapIdx.mp hproperty
    rw [bne_iff_ne]
    rintro rfl
    rw [parseInt_decimal] at hname
    cases hname
  rcases children with _ | ⟨child, _ | ⟨second, rest⟩⟩
  · rfl
  · simp [arrayToObject, hkey]
  · exact hindexed

/-- A text of an object, which has the name of none of its children. -/
theorem get_node {key : Str} (children : List (Value Int)) {texts : List (Str × Str)}
    {name text : Str} (hname : (parseInt name).isSome = false) (hkey : name ≠ key)
    (htext : texts.lookup name = some text) :
    get (some (node key children texts)) name = some (some (.string text)) := by
  have hlookup : (texts.map fun (name, text) => (name, (Value.string text : Value Int))).lookup
      name = some (.string text) := by
    induction texts with
    | nil => cases htext
    | cons first rest ih =>
      obtain ⟨other, value⟩ := first
      rw [List.map_cons, List.lookup_cons]
      rw [List.lookup_cons] at htext
      split at htext
      · obtain rfl := Option.some.inj htext
        rfl
      · exact ih htext
  show some ((arrayToObject key children ++ _).lookup name) = _
  rw [List.lookup_append, lookup_arrayToObject hname hkey, hlookup]
  rfl

theorem looselyEqual_string (s t : Str) :
    looselyEqual integers (some (.string s)) (some (.string t)) = some (decide (s = t)) := rfl

/-- The page makes the same colors of a part. -/
theorem colors_toValue (style : Style) (li : Str) (part : Part X) :
    Components.colors integers (some style.toValue) (some part.toValue) =
      some ((colors style li part).map (·.view)) := by
  have hmaterials : eachObject integers (some part.toValue) =
      some (part.materials.map fun material => some material.toValue) :=
    eachObject_map (fun _ => rfl) (by decide) (by decide) _ (unnumbered_name _)
  have hcolors : eachObject integers (some style.toValue) =
      some (style.colors.map fun styleColor => some styleColor.toValue) :=
    eachObject_map (fun _ => rfl) (by decide) (by decide) _ (unnumbered_name _)
  have hpairs : (part.materials.map fun material => some material.toValue).flatMapM
      (fun material => do some ((← eachObject integers (some style.toValue)).map
        fun styleColor => (material, styleColor))) =
      some ((part.materials.flatMap fun material =>
        style.colors.map fun styleColor => (material, styleColor)).map
          fun pair => (some pair.1.toValue, some pair.2.toValue)) := by
    rw [hcolors, flatMapM_map, List.map_flatMap]
    apply flatMapM_some
    intro material _
    rw [List.map_map]
    exact congrArg some List.map_map
  have hcolor : ∀ material : Material X,
      get (some material.toValue) "color".toList = some (some (.string material.color)) :=
    fun material => get_node [] (by decide) (by decide) rfl
  have hchannel : ∀ (styleColor : StyleColor) {name text : Str},
      (parseInt name).isSome = false → name ≠ [] →
      [("red".toList, styleColor.red), ("green".toList, styleColor.green),
        ("blue".toList, styleColor.blue), ("number".toList, styleColor.number)].lookup name =
          some text →
      get (some styleColor.toValue) name = some (some (.string text)) :=
    fun styleColor _ _ hname hkey htext => get_node [] hname hkey htext
  have hmatched : ((part.materials.flatMap fun material =>
      style.colors.map fun styleColor => (material, styleColor)).map
        fun pair => (some pair.1.toValue, some pair.2.toValue)).filterM (fun pair => do
          looselyEqual integers (← get pair.2 "number".toList) (← get pair.1 "color".toList)) =
      some (((part.materials.flatMap fun material =>
        style.colors.map fun styleColor => (material, styleColor)).filter
          fun pair => pair.2.number = pair.1.color).map
            fun pair => (some pair.1.toValue, some pair.2.toValue)) := by
    apply filterM_map
    rintro ⟨material, styleColor⟩ -
    show (get (some styleColor.toValue) _ >>= _) = _
    rw [hchannel styleColor (by decide) (by decide) rfl, hcolor material]
    exact looselyEqual_string _ _
  rw [Components.colors, hmaterials, Option.bind_eq_bind, Option.bind_some, hpairs]
  show (List.filterM (m := Option) _ _ >>= _) = _
  rw [hmatched]
  show List.mapM _ _ = _
  rw [colors, map_mapIdx]
  apply mapM_zipIdx _ _ 0
  rintro i ⟨material, styleColor⟩ -
  have hred : get (some styleColor.toValue) "red".toList = some (some (.string styleColor.red)) :=
    hchannel styleColor (by decide) (by decide) rfl
  have hgreen : get (some styleColor.toValue) "green".toList =
      some (some (.string styleColor.green)) :=
    hchannel styleColor (by decide) (by decide) rfl
  have hblue : get (some styleColor.toValue) "blue".toList =
      some (some (.string styleColor.blue)) :=
    hchannel styleColor (by decide) (by decide) rfl
  simp only [hred, hgreen, hblue, Nat.zero_add]
  rfl

theorem partsOf_slots (appearance : Appearance X) :
    Components.partsOf integers (some (node "slot".toList (appearance.slots.map (·.toValue)) [])) =
      some (appearance.parts.map fun part => some part.toValue) := by
  have hslots : eachObject integers (some (node "slot".toList
      (appearance.slots.map (·.toValue)) [])) =
      some (appearance.slots.map fun slot => some slot.toValue) :=
    eachObject_map (fun _ => rfl) (by decide) (by decide) _ (by simp)
  have hmeshes : (appearance.slots.map fun slot => some slot.toValue).flatMapM
      (eachObject integers) =
        some ((appearance.slots.flatMap (·.meshes)).map fun mesh => some mesh.toValue) := by
    rw [flatMapM_map, List.map_flatMap]
    exact flatMapM_some fun slot _ =>
      eachObject_map (fun _ => rfl) (by decide) (by decide) _ (unnumbered_name _)
  have hparts : ((appearance.slots.flatMap (·.meshes)).map fun mesh => some mesh.toValue).flatMapM
      (eachObject integers) = some (appearance.parts.map fun part => some part.toValue) := by
    rw [flatMapM_map, Appearance.parts, List.map_flatMap]
    exact flatMapM_some fun mesh _ =>
      eachObject_map (fun _ => rfl) (by decide) (by decide) _ (unnumbered_name _)
  rw [Components.partsOf, hslots, Option.bind_eq_bind, Option.bind_some, hmeshes]
  exact hparts

/-- The parts that the page makes of one style. -/
def views (baseID : Str) (appearance : Appearance X) (style : Style) : List (Components.Part Int) :=
  appearance.parts.mapIdx fun i part =>
    { i, name := some (.string part.name),
      colors := (colors style (baseID ++ "_part_".toList ++ decimal i) part).map (·.view) }

theorem views_toValue (baseID : Str) (appearance : Appearance X) (style : Style) :
    (appearance.parts.map fun part => some part.toValue).zipIdx.mapM (fun (part, i) => do
      some { i, name := ← get part "name".toList,
             colors := ← Components.colors integers (some style.toValue) part }) =
      some (views baseID appearance style) := by
  apply mapM_zipIdx _ _ 0
  intro i part _
  have hname : get (some part.toValue) "name".toList = some (some (.string part.name)) :=
    get_node _ (by decide) (by decide) rfl
  simp only [hname, colors_toValue style (baseID ++ "_part_".toList ++ decimal i) part,
    Nat.zero_add]
  rfl

/-- The page makes the same parts of an appearance. -/
theorem model_toValue (baseID : Str) (appearance : Appearance X) {style : Style}
    (h : appearance.styles.filter (fun style => style.name = "default".toList) = [style]) :
    Components.model integers appearance.toValue =
      some ((model baseID appearance).mapIdx fun i component =>
        { i, name := some (.string component.part.name),
          colors := component.colors.map (·.view) }) := by
  have hstyles : eachObject integers (some (node "style".toList
      (appearance.styles.map (·.toValue)) [])) =
      some (appearance.styles.map fun style => some style.toValue) :=
    eachObject_map (fun _ => rfl) (by decide) (by decide) _ (by simp)
  have hslots : get (some appearance.toValue) "slots".toList =
      some (some (node "slot".toList (appearance.slots.map (·.toValue)) [])) := rfl
  have hget : get (some appearance.toValue) "styles".toList =
      some (some (node "style".toList (appearance.styles.map (·.toValue)) [])) := rfl
  have hmap : ∀ body, (∀ style : Style, body (some style.toValue) =
      some (if style.name = "default".toList then views baseID appearance style else [])) →
      (appearance.styles.map fun style => some style.toValue).mapM body =
        some (appearance.styles.map fun style =>
          if style.name = "default".toList then views baseID appearance style else []) := by
    intro body hbody
    rw [mapM_eq_some, List.forall₂_map_left_iff, List.forall₂_map_right_iff, List.forall₂_same]
    exact fun style _ => hbody style
  rw [Components.model, hget]
  simp only [Option.bind_eq_bind, Option.bind_some, hstyles]
  rw [hmap]
  · show some (List.flatten _) = _
    rw [← List.flatMap_def, flatMap_ite, h, List.flatMap_singleton, model_default baseID h,
      List.mapIdx_mapIdx]
    rfl
  · intro style
    have hname : get (some style.toValue) "name".toList = some (some (.string style.name)) :=
      get_node _ (by decide) (by decide) rfl
    simp only [hname, hslots, Option.bind_some, looselyEqual_string, partsOf_slots]
    by_cases hdefault : style.name = "default".toList
    · simp only [hdefault, decide_true, if_true]
      exact views_toValue baseID appearance style
    · simp only [hdefault, decide_false]
      rfl

end Starfall.Coloring
