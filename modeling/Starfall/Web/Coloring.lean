import Mathlib.Data.List.Forall2
import Mathlib.Data.List.Nodup
import Starfall.ProofKit.Folds
import Starfall.Web.Appearance

/-! `data()` of `components.appearance.js`: the appearance that the page makes of the parts that are
switched on and of what the sliders hold.  An object is given by the list of what `_.eachObject`
visits in it, and `_.arrayToObject` makes an object of such a list. -/

namespace Starfall.Coloring

open Components (decimal ColorHole colorTemplate integers)
open ProofKit.Folds ProofKit.Transducers

abbrev Str := Components.Str

/-! ### Appearances -/

/-- A material, with whatever else its object has. -/
structure Material (X : Type) where
  name : Str
  color : Str
  rest : X
  deriving DecidableEq

structure Part (X : Type) where
  name : Str
  materials : List (Material X)
  rest : X
  deriving DecidableEq

structure Mesh (X : Type) where
  name : Str
  parts : List (Part X)

structure Slot (X : Type) where
  name : Str
  meshes : List (Mesh X)

/-- What `_.pick(color, "red", "green", "blue")` picks. -/
structure Rgb where
  red : Str
  green : Str
  blue : Str
  deriving DecidableEq

structure StyleColor extends Rgb where
  number : Str
  deriving DecidableEq

structure Style where
  name : Str
  colors : List StyleColor
  deriving DecidableEq

structure Appearance (X : Type) where
  slots : List (Slot X)
  styles : List Style

variable {X : Type}

def Appearance.parts (appearance : Appearance X) : List (Part X) :=
  (appearance.slots.flatMap (·.meshes)).flatMap (·.parts)

/-- The color of a material, by its number in a style. -/
def resolve (colors : List StyleColor) (material : Material X) : Option Rgb :=
  (colors.find? fun styleColor => styleColor.number = material.color).map (·.toRgb)

/-! ### Components -/

/-- A `Color` of the page, the `j`th of the part with the id `li`. -/
structure Color (X : Type) extends Rgb where
  li : Str
  j : Nat
  material : Material X
  number : Str

/-- A `Part` of the page. -/
structure PartComponent (X : Type) where
  part : Part X
  on : Bool
  colors : List (Color X)

def colors (style : Style) (li : Str) (part : Part X) : List (Color X) :=
  let pairs := part.materials.flatMap fun material =>
    style.colors.map fun styleColor => (material, styleColor)
  (pairs.filter fun (material, styleColor) => styleColor.number = material.color).mapIdx
    fun j (material, styleColor) =>
      { styleColor.toRgb with li, j, material, number := styleColor.number }

/-- The constructor of `Model`. -/
def model (baseID : Str) (appearance : Appearance X) : List (PartComponent X) :=
  appearance.styles.flatMap fun style =>
    if style.name = "default".toList then
      appearance.parts.mapIdx fun i part =>
        { part, on := false, colors := colors style (baseID ++ "_part_".toList ++ decimal i) part }
    else []

/-- The components after the toggles of some were moved. -/
def switched (on : Nat → Bool) (parts : List (PartComponent X)) : List (PartComponent X) :=
  parts.mapIdx fun i part => { part with on := on i }

/-! ### Sliders -/

/-- The color as the template of its part is given it. -/
def Color.view (color : Color X) : Components.Color Int where
  j := color.j
  red := some (.string color.red)
  green := some (.string color.green)
  blue := some (.string color.blue)

/-- What stands in the holes of the template for the color. -/
def Color.filling (color : Color X) : ColorHole → Str :=
  color.view.fillings color.li ((color.view.toHex integers).getD []) color.red color.green

/-- The hole for the initial value of the input whose id stands in a hole. -/
def valueOf (id : ColorHole) : List (Piece ColorHole Char) → Option ColorHole
  | .hole hole :: .text text :: .hole value :: pieces =>
    if hole = id ∧ text = "' value='".toList then some value
    else valueOf id (.text text :: .hole value :: pieces)
  | _ :: pieces => valueOf id pieces
  | [] => none

/-- `current`, where `values` are the values of the inputs by their ids. -/
def Color.current (values : Str → Str) (color : Color X) : Rgb where
  red := values (color.filling .sliderRed)
  green := values (color.filling .sliderGreen)
  blue := values (color.filling .sliderBlue)

/-- The sliders of a color hold the values that the template gives them. -/
def Pristine (values : Str → Str) (color : Color X) : Prop :=
  ∀ id ∈ [ColorHole.sliderRed, .sliderGreen, .sliderBlue],
    some (values (color.filling id)) = (valueOf id colorTemplate).map color.filling

/-! ### `data` -/

/-- The colors that `data` collects, and the next number. -/
structure Emitted where
  style : List StyleColor
  nextNumber : Nat

section Data

variable (values : Str → Str)

/-- `material.color = number` for the materials of a name. -/
def paint (name number : Str) (materials : List (Material X)) : List (Material X) :=
  materials.map fun material =>
    if name = material.name then { material with color := number } else material

/-- The filter for one color: when it is in the style already it is dropped, and the materials of
its name get its number there. -/
def reuseColor (style : List StyleColor) (s : List (Color X) × List (Material X))
    (color : Color X) : List (Color X) × List (Material X) :=
  match style.find? fun styleElem => color.current values = styleElem.toRgb with
  | some styleElem => (s.1, paint color.material.name styleElem.number s.2)
  | none => (s.1 ++ [color], s.2)

def reuse (style : List StyleColor) (colors : List (Color X)) (materials : List (Material X)) :
    List (Color X) × List (Material X) :=
  colors.foldl (reuseColor values style) ([], materials)

/-- A number for each material of the name, with the last of them, which is `number` if there is
none. -/
def address (name : Str) : List (Material X) → Nat → Str → List (Material X) × Nat × Str
  | [], nextNumber, number => ([], nextNumber, number)
  | material :: materials, nextNumber, number =>
    if name = material.name then
      let (addressed, next) := address name materials (nextNumber + 1) (decimal nextNumber)
      ({ material with color := decimal nextNumber } :: addressed, next)
    else
      let (addressed, next) := address name materials nextNumber number
      (material :: addressed, next)

/-- The map for one color that is left. -/
def includeColor (s : List StyleColor × Nat × List (Material X)) (color : Color X) :
    List StyleColor × Nat × List (Material X) :=
  let (materials, nextNumber, number) := address color.material.name s.2.2 s.2.1 "-1".toList
  (s.1 ++ [{ toRgb := color.current values, number }], nextNumber, materials)

def includeColors (colors : List (Color X)) (nextNumber : Nat) (materials : List (Material X)) :
    List StyleColor × Nat × List (Material X) :=
  colors.foldl (includeColor values) ([], nextNumber, materials)

variable [DecidableEq X] (components : List (PartComponent X))

/-- The first component that is switched on and has the same part. -/
def componentOf (part : Part X) : Option (PartComponent X) :=
  components.find? fun component => component.on ∧ component.part = part

/-- One part, which is pushed when there is a component for it. -/
def dataPart (s : Emitted) (part : Part X) : Emitted × Option (Part X) :=
  match componentOf components part with
  | none => (s, none)
  | some component =>
    let (kept, materials) := reuse values s.style component.colors part.materials
    let (included, nextNumber, materials) := includeColors values kept s.nextNumber materials
    (⟨s.style ++ included, nextNumber⟩, some { part with materials })

def dataMesh (s : Emitted) (mesh : Mesh X) : Emitted × Option (Mesh X) :=
  let (s, partArray) := collect (dataPart values components) s mesh.parts
  (s, if partArray.length > 0 then some { mesh with parts := partArray } else none)

def dataSlot (s : Emitted) (slot : Slot X) : Emitted × Option (Slot X) :=
  let (s, meshArray) := collect (dataMesh values components) s slot.meshes
  (s, if meshArray.length > 0 then some { slot with meshes := meshArray } else none)

/-- `data`, of the components and an appearance. -/
def data (appearance : Appearance X) : Appearance X :=
  let (s, slotArray) := collect (dataSlot values components) ⟨[], 0⟩ appearance.slots
  { slots := slotArray, styles := [⟨"default".toList, s.style⟩] }

end Data

/-! ### Numbers -/

theorem decimal_injective {m n : Nat} (h : decimal m = decimal n) : m = n := by
  have hread := congrArg (fun digits => Nat.ofDigitChars 10 digits 0) h
  simpa only [decimal, Nat.ofDigitChars_ten_toDigits] using hread

theorem filter_number {colors : List StyleColor} (h : (colors.map (·.number)).Nodup)
    {styleColor : StyleColor} (hmem : styleColor ∈ colors) :
    colors.filter (fun other => other.number = styleColor.number) = [styleColor] := by
  induction colors with
  | nil => cases hmem
  | cons first rest ih =>
    rw [List.map_cons, List.nodup_cons] at h
    rcases List.mem_cons.mp hmem with rfl | hmem
    · rw [List.filter_cons_of_pos (by simp), List.filter_eq_nil_iff.mpr]
      intro other hother hnumber
      exact h.1 (List.mem_map.mpr ⟨other, hother, of_decide_eq_true hnumber⟩)
    · rw [List.filter_cons_of_neg, ih h.2 hmem]
      intro hnumber
      rw [of_decide_eq_true hnumber] at h
      exact h.1 (List.mem_map_of_mem hmem)

/-- With distinct numbers, a material has the color whose number it names. -/
theorem resolve_eq {colors : List StyleColor} (h : (colors.map (·.number)).Nodup)
    {styleColor : StyleColor} (hmem : styleColor ∈ colors) {material : Material X}
    (hnumber : material.color = styleColor.number) :
    resolve colors material = some styleColor.toRgb := by
  rw [resolve, ← List.head?_filter, hnumber, filter_number h hmem]
  rfl

/-! ### The colors of a part -/

/-- The color is that of the material in the style. -/
def Names (style : Style) (material : Material X) (color : Color X) : Prop :=
  color.material = material ∧ ∃ styleColor ∈ style.colors,
    styleColor.number = material.color ∧ color.toRgb = styleColor.toRgb

theorem pairs_forall₂ {style : Style} (hstyle : (style.colors.map (·.number)).Nodup)
    {materials : List (Material X)}
    (hmaterials : ∀ material ∈ materials, material.color ∈ style.colors.map (·.number)) :
    List.Forall₂ (fun material pair => pair.1 = material ∧ pair.2 ∈ style.colors ∧
      pair.2.number = material.color) materials
      ((materials.flatMap fun material =>
        style.colors.map fun styleColor => (material, styleColor)).filter
          fun pair => pair.2.number = pair.1.color) := by
  induction materials with
  | nil => exact .nil
  | cons material materials ih =>
    rw [List.forall_mem_cons] at hmaterials
    obtain ⟨styleColor, hmem, hnumber⟩ := List.mem_map.mp hmaterials.1
    have hone : (style.colors.map fun styleColor => (material, styleColor)).filter
        (fun pair => pair.2.number = pair.1.color) = [(material, styleColor)] := by
      rw [List.filter_map]
      show (style.colors.filter fun other => other.number = material.color).map _ = _
      rw [← hnumber, filter_number hstyle hmem]
      rfl
    rw [List.flatMap_cons, List.filter_append, hone]
    exact .cons ⟨rfl, hmem, hnumber⟩ (ih hmaterials.2)

/-- A part has one color for each of its materials. -/
theorem colors_names {style : Style} (hstyle : (style.colors.map (·.number)).Nodup) (li : Str)
    {part : Part X}
    (hmaterials : ∀ material ∈ part.materials, material.color ∈ style.colors.map (·.number)) :
    List.Forall₂ (Names style) part.materials (colors style li part) := by
  apply forall₂_mapIdx (fun j material pair hpair => ?_) (pairs_forall₂ hstyle hmaterials)
  exact ⟨hpair.1, pair.2, hpair.2.1, hpair.2.2, rfl⟩

/-! ### Sliders -/

/-- What the sliders of a color begin with: the template gives the third one the green. -/
def shown (rgb : Rgb) : Rgb := ⟨rgb.red, rgb.green, rgb.green⟩

theorem current_pristine {values : Str → Str} {color : Color X} (h : Pristine values color) :
    color.current values = shown color.toRgb := by
  have hred := h .sliderRed (by decide)
  have hgreen := h .sliderGreen (by decide)
  have hblue := h .sliderBlue (by decide)
  have hholes : [ColorHole.sliderRed, .sliderGreen, .sliderBlue].map (valueOf · colorTemplate) =
      [some .red, some .green, some .green] := by
    decide +kernel
  simp only [List.map_cons, List.map_nil, List.cons.injEq, and_true] at hholes
  rw [hholes.1] at hred
  rw [hholes.2.1] at hgreen
  rw [hholes.2.2] at hblue
  rw [Color.current, Option.some.inj hred, Option.some.inj hgreen, Option.some.inj hblue]
  rfl

/-! ### The components of an appearance -/

/-- The component of the `i`th part, in the default style. -/
def component (baseID : Str) (style : Style) (on : Nat → Bool) (i : Nat) (part : Part X) :
    PartComponent X :=
  { part, on := on i, colors := colors style (baseID ++ "_part_".toList ++ decimal i) part }

theorem model_default (baseID : Str) {appearance : Appearance X} {style : Style}
    (h : appearance.styles.filter (fun style => style.name = "default".toList) = [style]) :
    model baseID appearance =
      appearance.parts.mapIdx (component baseID style fun _ => false) := by
  rw [model, flatMap_ite, h, List.flatMap_singleton]
  rfl

theorem switched_model (baseID : Str) {appearance : Appearance X} {style : Style}
    (h : appearance.styles.filter (fun style => style.name = "default".toList) = [style])
    (on : Nat → Bool) :
    switched on (model baseID appearance) =
      appearance.parts.mapIdx (component baseID style on) := by
  rw [switched, model_default baseID h, List.mapIdx_mapIdx]
  rfl

theorem mem_switched {baseID : Str} {style : Style} {on : Nat → Bool} {parts : List (Part X)}
    {part : Part X} :
    part ∈ ((parts.mapIdx (component baseID style on)).filter (·.on)).map (·.part) ↔
      ∃ i, parts[i]? = some part ∧ on i := by
  simp only [List.mem_map, List.mem_filter, List.mem_mapIdx]
  constructor
  · rintro ⟨found, ⟨⟨i, hi, rfl⟩, hon⟩, rfl⟩
    exact ⟨i, List.getElem?_eq_getElem hi, hon⟩
  · rintro ⟨i, hpart, hon⟩
    obtain ⟨hi, rfl⟩ := List.getElem?_eq_some_iff.mp hpart
    exact ⟨_, ⟨⟨i, hi, rfl⟩, hon⟩, rfl⟩

theorem map_component (baseID : Str) (style : Style) (on : Nat → Bool) (parts : List (Part X)) :
    (parts.mapIdx (component baseID style on)).map (·.part) = parts := by
  apply List.ext_getElem?
  intro i
  rw [List.getElem?_map, List.getElem?_mapIdx]
  cases parts[i]? <;> rfl

/-! ### The materials of a part -/

theorem name_ne {first material : Material X} {before after : List (Material X)}
    (h : first.name ∉ (before ++ material :: after).map (·.name)) :
    material.name ≠ first.name := by
  intro heq
  exact h (List.mem_map.mpr ⟨material, by simp, heq⟩)

theorem paint_absent {name : Str} (number : Str) {materials : List (Material X)}
    (h : name ∉ materials.map (·.name)) : paint name number materials = materials := by
  induction materials with
  | nil => rfl
  | cons material materials ih =>
    rw [List.map_cons, List.mem_cons, not_or] at h
    rw [paint, List.map_cons, if_neg h.1, ← paint, ih h.2]

theorem paint_at {before after : List (Material X)} {material : Material X} (number : Str)
    (h : ((before ++ material :: after).map (·.name)).Nodup) :
    paint material.name number (before ++ material :: after) =
      before ++ { material with color := number } :: after := by
  induction before with
  | nil =>
    rw [List.nil_append, List.map_cons, List.nodup_cons] at h
    rw [List.nil_append, paint, List.map_cons, if_pos rfl, ← paint, paint_absent number h.1]
    rfl
  | cons first before ih =>
    rw [List.cons_append, List.map_cons, List.nodup_cons] at h
    rw [List.cons_append, paint, List.map_cons, if_neg (name_ne h.1), ← paint, ih h.2]
    rfl

theorem address_absent {name : Str} {materials : List (Material X)}
    (h : name ∉ materials.map (·.name)) (nextNumber : Nat) (number : Str) :
    address name materials nextNumber number = (materials, nextNumber, number) := by
  induction materials with
  | nil => rfl
  | cons material materials ih =>
    rw [List.map_cons, List.mem_cons, not_or] at h
    rw [address, if_neg h.1, ih h.2]

theorem address_at {before after : List (Material X)} {material : Material X} (nextNumber : Nat)
    (number : Str) (h : ((before ++ material :: after).map (·.name)).Nodup) :
    address material.name (before ++ material :: after) nextNumber number =
      (before ++ { material with color := decimal nextNumber } :: after, nextNumber + 1,
        decimal nextNumber) := by
  induction before with
  | nil =>
    rw [List.nil_append, List.map_cons, List.nodup_cons] at h
    rw [List.nil_append, address, if_pos rfl, address_absent h.1]
    rfl
  | cons first before ih =>
    rw [List.cons_append, List.map_cons, List.nodup_cons] at h
    rw [List.cons_append, address, if_neg (name_ne h.1), ih h.2]
    rfl

/-- The style has the color of the sliders under the number of the material. -/
def Finds (values : Str → Str) (style : List StyleColor) (color : Color X)
    (material : Material X) : Prop :=
  ∃ styleColor ∈ style, material.color = styleColor.number ∧
    styleColor.toRgb = color.current values

theorem Finds.mono {values : Str → Str} {style style' : List StyleColor} {color : Color X}
    {material : Material X} (h : Finds values style color material) (hsubset : style ⊆ style') :
    Finds values style' color material := by
  obtain ⟨styleColor, hmem, hfound⟩ := h
  exact ⟨styleColor, hsubset hmem, hfound⟩

/-- Whether the filter leaves a color. -/
def isNew (values : Str → Str) (style : List StyleColor) (color : Color X) : Bool :=
  (style.find? fun styleElem => color.current values = styleElem.toRgb).isNone

/-- The colors of a part beside its materials, of which those that are found in the style are
named. -/
def Reused (values : Str → Str) (style : List StyleColor) (color : Color X)
    (material : Material X) : Prop :=
  color.material.name = material.name ∧
    (isNew values style color = false → Finds values style color material)

/-- The filter, from any materials in front that were seen to. -/
theorem reuse_spec (values : Str → Str) (style : List StyleColor) {colors : List (Color X)}
    {materials : List (Material X)}
    (h : List.Forall₂ (fun color material => color.material.name = material.name) colors materials)
    (kept : List (Color X)) (before : List (Material X))
    (hnodup : ((before ++ materials).map (·.name)).Nodup) :
    ∃ materials', colors.foldl (reuseColor values style) (kept, before ++ materials) =
      (kept ++ colors.filter (isNew values style), before ++ materials') ∧
      materials'.map (·.name) = materials.map (·.name) ∧
      List.Forall₂ (Reused values style) colors materials' := by
  induction h generalizing kept before with
  | nil => exact ⟨[], by simp, rfl, .nil⟩
  | @cons color material colors materials hname _ ih =>
    cases hfind : style.find? fun styleElem => color.current values = styleElem.toRgb with
    | some styleElem =>
      have hold : isNew values style color = false := by
        rw [isNew, hfind]
        rfl
      have hstep : reuseColor values style (kept, before ++ material :: materials) color =
          (kept, (before ++ [{ material with color := styleElem.number }]) ++ materials) := by
        rw [reuseColor, hfind]
        show (kept, paint color.material.name _ _) = _
        rw [hname, paint_at _ hnodup]
        simp
      have hequal : color.current values = styleElem.toRgb := by
        simpa using List.find?_some hfind
      obtain ⟨materials', hfold, hnames, hreused⟩ := ih kept
        (before ++ [{ material with color := styleElem.number }]) (by simpa using hnodup)
      refine ⟨{ material with color := styleElem.number } :: materials', ?_, ?_, ?_⟩
      · rw [List.foldl_cons, hstep, hfold, List.filter_cons_of_neg (by simp [hold])]
        simp
      · simp [hnames]
      · exact .cons ⟨hname, fun _ => ⟨styleElem, List.mem_of_find?_eq_some hfind, rfl, hequal.symm⟩⟩
          hreused
    | none =>
      have hnew : isNew values style color = true := by
        rw [isNew, hfind]
        rfl
      have hstep : reuseColor values style (kept, before ++ material :: materials) color =
          (kept ++ [color], (before ++ [material]) ++ materials) := by
        rw [reuseColor, hfind]
        simp
      obtain ⟨materials', hfold, hnames, hreused⟩ := ih (kept ++ [color])
        (before ++ [material]) (by simpa using hnodup)
      refine ⟨material :: materials', ?_, ?_, ?_⟩
      · rw [List.foldl_cons, hstep, hfold, List.filter_cons_of_pos hnew]
        simp
      · simp [hnames]
      · exact .cons ⟨hname, by simp [hnew]⟩ hreused

/-- The map, from any materials in front that were seen to: the colors that are left get the next
numbers in their order. -/
theorem include_spec (values : Str → Str) (style : List StyleColor) {colors : List (Color X)}
    {materials : List (Material X)} (h : List.Forall₂ (Reused values style) colors materials)
    (included : List StyleColor) (nextNumber : Nat) (before : List (Material X))
    (hnodup : ((before ++ materials).map (·.name)).Nodup) :
    ∃ added materials', (colors.filter (isNew values style)).foldl (includeColor values)
        (included, nextNumber, before ++ materials) =
      (included ++ added, nextNumber + added.length, before ++ materials') ∧
      added.map (·.number) = (List.range' nextNumber added.length).map decimal ∧
      materials'.map (·.name) = materials.map (·.name) ∧
      List.Forall₂ (Finds values (style ++ added)) colors materials' := by
  induction h generalizing included nextNumber before with
  | nil => exact ⟨[], [], by simp, rfl, rfl, .nil⟩
  | @cons color material colors materials hreused _ ih =>
    cases hnew : isNew values style color with
    | true =>
      have hstep : includeColor values (included, nextNumber, before ++ material :: materials)
          color = (included ++ [⟨color.current values, decimal nextNumber⟩],
            nextNumber + 1,
            (before ++ [{ material with color := decimal nextNumber }]) ++ materials) := by
        rw [includeColor, hreused.1]
        simp only
        rw [address_at _ _ hnodup]
        simp
      obtain ⟨added, materials', hfold, hnumbers, hnames, hfinds⟩ := ih
        (included ++ [⟨color.current values, decimal nextNumber⟩])
        (nextNumber + 1) (before ++ [{ material with color := decimal nextNumber }])
        (by simpa using hnodup)
      refine ⟨⟨color.current values, decimal nextNumber⟩ :: added,
        { material with color := decimal nextNumber } :: materials', ?_, ?_, ?_, ?_⟩
      · rw [List.filter_cons_of_pos hnew, List.foldl_cons, hstep, hfold]
        simp [Nat.add_assoc, Nat.add_comm 1]
      · rw [List.map_cons, hnumbers, List.length_cons, List.range'_succ, List.map_cons]
      · simp [hnames]
      · refine .cons ⟨⟨color.current values, decimal nextNumber⟩, by simp, rfl, rfl⟩ ?_
        exact hfinds.imp fun color material hfound => hfound.mono (by simp)
    | false =>
      obtain ⟨added, materials', hfold, hnumbers, hnames, hfinds⟩ := ih included nextNumber
        (before ++ [material]) (by simpa using hnodup)
      refine ⟨added, material :: materials', ?_, hnumbers, ?_, ?_⟩
      · rw [List.filter_cons_of_neg (by simp [hnew])]
        simpa using hfold
      · simp [hnames]
      · exact .cons ((hreused.2 hnew).mono (List.subset_append_left _ _)) hfinds

/-! ### Parts -/

/-- The numbers of the collected colors are those up to the next one, in their order. -/
def Numbered (s : Emitted) : Prop :=
  s.style.map (·.number) = (List.range s.nextNumber).map decimal

theorem Numbered.nodup {s : Emitted} (h : Numbered s) : (s.style.map (·.number)).Nodup := by
  rw [h]
  exact List.nodup_range.map fun _ _ => decimal_injective

/-- A material and what became of it: it names the color that the sliders show for its own. -/
def Shown (style : Style) (emitted : List StyleColor) (material material' : Material X) : Prop :=
  material'.name = material.name ∧ ∃ styleColor ∈ style.colors,
    styleColor.number = material.color ∧ ∃ styleElem ∈ emitted,
      material'.color = styleElem.number ∧ styleElem.toRgb = shown styleColor.toRgb

theorem shown_materials {values : Str → Str} {style : Style} {emitted : List StyleColor}
    {materials materials' : List (Material X)} {colors : List (Color X)}
    (hcolors : List.Forall₂ (Names style) materials colors)
    (hfinds : List.Forall₂ (Finds values emitted) colors materials')
    (hnames : materials'.map (·.name) = materials.map (·.name))
    (hpristine : ∀ color ∈ colors, Pristine values color) :
    List.Forall₂ (Shown style emitted) materials materials' := by
  induction hcolors generalizing materials' with
  | nil =>
    cases hfinds
    exact .nil
  | @cons material color materials colors hcolor _ ih =>
    obtain ⟨material', rest, hfound, hrest, rfl⟩ := List.forall₂_cons_left_iff.mp hfinds
    rw [List.map_cons, List.map_cons, List.cons.injEq] at hnames
    rw [List.forall_mem_cons] at hpristine
    obtain ⟨-, styleColor, hmem, hnumber, hrgb⟩ := hcolor
    obtain ⟨styleElem, helem, hname, hcurrent⟩ := hfound
    refine .cons ⟨hnames.1, styleColor, hmem, hnumber, styleElem, helem, hname, ?_⟩
      (ih hrest hnames.2 hpristine.2)
    rw [hcurrent, current_pristine hpristine.1, hrgb]

/-- A material has the same color as before exactly when that has as much blue as green. -/
theorem shown_iff {style : Style} (hstyle : (style.colors.map (·.number)).Nodup)
    {emitted : List StyleColor} (hemitted : (emitted.map (·.number)).Nodup)
    {material material' : Material X} (h : Shown style emitted material material') :
    (material'.name = material.name ∧
      resolve emitted material' = resolve style.colors material) ↔
      ∀ styleColor ∈ style.colors, styleColor.number = material.color →
        styleColor.blue = styleColor.green := by
  obtain ⟨hname, styleColor, hmem, hnumber, styleElem, helem, hcolor, hshown⟩ := h
  rw [resolve_eq hemitted helem hcolor, resolve_eq hstyle hmem hnumber.symm, hshown]
  constructor
  · rintro ⟨-, hsame⟩ other hother hothers
    have hother' := resolve_eq hstyle hother hothers.symm
    rw [resolve_eq hstyle hmem hnumber.symm] at hother'
    rw [← Option.some.inj hother', ← Option.some.inj hsame]
    rfl
  · intro h
    refine ⟨hname, congrArg some ?_⟩
    exact congrArg (Rgb.mk styleColor.red styleColor.green) (h styleColor hmem hnumber).symm

/-- What `data` needs of the component of a part. -/
structure Ready (values : Str → Str) (style : Style) (part : Part X)
    (component : PartComponent X) : Prop where
  colors : List.Forall₂ (Names style) part.materials component.colors
  names : (part.materials.map (·.name)).Nodup
  pristine : ∀ color ∈ component.colors, Pristine values color

variable [DecidableEq X]

/-- What `data` needs of a component: a color for each of the materials of its part, which can be
told apart by their names. -/
structure Paired (component : PartComponent X) : Prop where
  colors : List.Forall₂ (fun color material => color.material.name = material.name)
    component.colors component.part.materials
  names : (component.part.materials.map (·.name)).Nodup

/-- What `data` makes of the part of a component: the materials name the colors of its sliders. -/
structure Painted (values : Str → Str) (emitted : List StyleColor) (component : PartComponent X)
    (part' : Part X) : Prop where
  names : part'.materials.map (·.name) = component.part.materials.map (·.name)
  finds : List.Forall₂ (Finds values emitted) component.colors part'.materials

omit [DecidableEq X] in
theorem Painted.mono {values : Str → Str} {emitted emitted' : List StyleColor}
    {component : PartComponent X} {part' : Part X} (h : Painted values emitted component part')
    (hsubset : emitted ⊆ emitted') : Painted values emitted' component part' :=
  ⟨h.names, h.finds.imp fun _ _ hfound => hfound.mono hsubset⟩

theorem componentOf_some {components : List (PartComponent X)} {part : Part X}
    {component : PartComponent X} (h : componentOf components part = some component) :
    component ∈ components ∧ component.on ∧ component.part = part := by
  rw [componentOf] at h
  have hfits := List.find?_some h
  exact ⟨List.mem_of_find?_eq_some h, of_decide_eq_true hfits⟩

theorem dataPart_some {values : Str → Str} {components : List (PartComponent X)}
    {s : Emitted} {part : Part X} {component : PartComponent X}
    (hfind : componentOf components part = some component) (hpaired : Paired component)
    (hs : Numbered s) :
    ∃ s' part', dataPart values components s part = (s', some part') ∧ Numbered s' ∧
      s.style ⊆ s'.style ∧ Painted values s'.style component part' := by
  obtain ⟨-, -, rfl⟩ := componentOf_some hfind
  obtain ⟨materials, hreuse, hnames, hreused⟩ :=
    reuse_spec values s.style hpaired.colors [] [] hpaired.names
  obtain ⟨added, materials', hinclude, hnumbers, hnames', hfinds⟩ :=
    include_spec values s.style hreused [] s.nextNumber []
      (by simpa [hnames] using hpaired.names)
  refine ⟨⟨s.style ++ added, s.nextNumber + added.length⟩,
    { component.part with materials := materials' }, ?_, ?_, List.subset_append_left _ _, ?_⟩
  · rw [dataPart, hfind]
    simp only [List.nil_append] at hreuse hinclude
    simp only [reuse, hreuse, includeColors, hinclude]
  · rw [Numbered, List.map_append, hs, hnumbers, List.range_eq_range', List.range_eq_range',
      ← List.map_append, ← List.range'_append_1, Nat.zero_add]
  · exact ⟨hnames'.trans hnames, hfinds⟩

/-- The parts of a mesh, a slot or an appearance, one after the other. -/
theorem collect_dataPart {values : Str → Str} {components : List (PartComponent X)}
    (hpaired : ∀ component ∈ components, Paired component) (parts : List (Part X))
    {s : Emitted} (hs : Numbered s) :
    ∃ s' parts', collect (dataPart values components) s parts = (s', parts') ∧ Numbered s' ∧
      s.style ⊆ s'.style ∧ List.Forall₂ (fun part part' => ∃ component,
        componentOf components part = some component ∧ Painted values s'.style component part')
        (parts.filter fun part => (componentOf components part).isSome) parts' := by
  induction parts generalizing s with
  | nil => exact ⟨s, [], rfl, hs, List.Subset.refl _, .nil⟩
  | cons part parts ih =>
    cases hfind : componentOf components part with
    | none =>
      have hpart : dataPart values components s part = (s, none) := by
        rw [dataPart, hfind]
      obtain ⟨s', parts', hcollect, hs', hsubset, hparts⟩ := ih hs
      refine ⟨s', parts', ?_, hs', hsubset, ?_⟩
      · rw [collect, hpart]
        simp only [hcollect]
        rfl
      · rw [List.filter_cons_of_neg (by simp [hfind])]
        exact hparts
    | some component =>
      obtain ⟨s₁, part', hpart, hs₁, hsubset₁, hpainted⟩ :=
        dataPart_some hfind (hpaired _ (componentOf_some hfind).1) hs
      obtain ⟨s', parts', hcollect, hs', hsubset, hparts⟩ := ih hs₁
      refine ⟨s', part' :: parts', ?_, hs', List.Subset.trans hsubset₁ hsubset, ?_⟩
      · rw [collect, hpart]
        simp only [hcollect]
        rfl
      · rw [List.filter_cons_of_pos (by simp [hfind])]
        exact .cons ⟨component, hfind, hpainted.mono hsubset⟩ hparts

/-! ### Slots -/

theorem collect_dataMesh (values : Str → Str) (components : List (PartComponent X)) (s : Emitted)
    (meshes : List (Mesh X)) :
    ((collect (dataMesh values components) s meshes).1,
      (collect (dataMesh values components) s meshes).2.flatMap (·.parts)) =
      collect (dataPart values components) s (meshes.flatMap (·.parts)) := by
  apply collect_flatMap
  intro s mesh
  rw [dataMesh]
  exact Prod.ext rfl (flatMap_pushed _ _ _ rfl)

/-- The parts of what `data` returns, and its style. -/
theorem data_parts (values : Str → Str) (components : List (PartComponent X))
    (appearance : Appearance X) {s : Emitted} {parts : List (Part X)}
    (h : collect (dataPart values components) ⟨[], 0⟩ appearance.parts = (s, parts)) :
    (data values components appearance).parts = parts ∧
      (data values components appearance).styles = [⟨"default".toList, s.style⟩] := by
  have hslots : ((collect (dataSlot values components) ⟨[], 0⟩ appearance.slots).1,
      (collect (dataSlot values components) ⟨[], 0⟩ appearance.slots).2.flatMap fun slot =>
        slot.meshes.flatMap (·.parts)) =
      collect (dataPart values components) ⟨[], 0⟩ appearance.parts := by
    rw [Appearance.parts, List.flatMap_assoc]
    apply collect_flatMap
    intro s slot
    have hmeshes := flatMap_pushed (collect (dataMesh values components) s slot.meshes).2
      (fun meshes => { slot with meshes := meshes }) Slot.meshes rfl
    rw [← collect_dataMesh, ← List.flatMap_assoc]
    exact Prod.ext rfl (congrArg (List.flatMap (·.parts)) hmeshes)
  rw [h, Prod.mk.injEq] at hslots
  constructor
  · rw [← hslots.2, Appearance.parts, List.flatMap_assoc]
    rfl
  · rw [← hslots.1]
    rfl

/-! ### Editing -/

/-- The parts that are switched on are those that `data` finds a component for. -/
theorem included_eq (components : List (PartComponent X))
    (h : (components.map (·.part)).Nodup) :
    (components.filter (·.on)).map (·.part) =
      (components.map (·.part)).filter fun part => (componentOf components part).isSome := by
  rw [List.filter_map]
  congr 1
  apply List.filter_congr
  intro component hmem
  rw [Bool.eq_iff_iff]
  show _ ↔ (componentOf components component.part).isSome
  rw [componentOf, List.find?_isSome]
  constructor
  · intro hon
    exact ⟨component, hmem, by simpa using hon⟩
  · rintro ⟨other, hother, hsame⟩
    obtain ⟨hon, hpart⟩ := of_decide_eq_true hsame
    rwa [← List.inj_on_of_nodup_map h hother hmem hpart]

/-- Every material of a part that is included has the color in `emitted` that it had. -/
def Keeps (style : Style) (included : List (Part X)) (emitted : List StyleColor)
    (parts : List (Part X)) : Prop :=
  List.Forall₂ (fun part part' => List.Forall₂ (fun material material' =>
    material'.name = material.name ∧ resolve emitted material' = resolve style.colors material)
    part.materials part'.materials) included parts

omit [DecidableEq X] in
theorem keeps_shown {style : Style} (hstyle : (style.colors.map (·.number)).Nodup)
    {emitted : List StyleColor} (hemitted : (emitted.map (·.number)).Nodup)
    {included parts : List (Part X)} (h : List.Forall₂ (fun part part' =>
      List.Forall₂ (Shown style emitted) part.materials part'.materials) included parts) :
    Keeps style included emitted parts ↔ ∀ part ∈ included, ∀ material ∈ part.materials,
      ∀ styleColor ∈ style.colors, styleColor.number = material.color →
        styleColor.blue = styleColor.green := by
  refine forall₂_iff (fun part part' hpart => ?_) h
  refine forall₂_iff (fun material material' hmaterial => ?_) hpart
  exact shown_iff hstyle hemitted hmaterial

/-- An appearance with one default style, whose numbers are distinct and which has those of the
materials, and with parts that can be told apart, as can the materials of each. -/
structure Regular (appearance : Appearance X) (style : Style) : Prop where
  default : appearance.styles.filter (fun style => style.name = "default".toList) = [style]
  numbers : (style.colors.map (·.number)).Nodup
  materials : ∀ part ∈ appearance.parts, ∀ material ∈ part.materials,
    material.color ∈ style.colors.map (·.number)
  parts : appearance.parts.Nodup
  names : ∀ part ∈ appearance.parts, (part.materials.map (·.name)).Nodup

/-- No slider was moved. -/
def Untouched (values : Str → Str) (baseID : Str) (appearance : Appearance X) : Prop :=
  ∀ component ∈ model baseID appearance, ∀ color ∈ component.colors, Pristine values color

/-- What `data` returns keeps the colors of the parts that are switched on. -/
def Kept (values : Str → Str) (baseID : Str) (on : Nat → Bool) (appearance : Appearance X)
    (style : Style) : Prop :=
  let components := switched on (model baseID appearance)
  ∃ emitted, (data values components appearance).styles = [⟨"default".toList, emitted⟩] ∧
    Keeps style ((components.filter (·.on)).map (·.part)) emitted
      (data values components appearance).parts

omit [DecidableEq X] in
theorem paired_component (baseID : Str) {appearance : Appearance X} {style : Style}
    (on : Nat → Bool) (h : Regular appearance style) :
    ∀ found ∈ appearance.parts.mapIdx (component baseID style on), Paired found := by
  intro found hfound
  obtain ⟨i, hi, rfl⟩ := List.mem_mapIdx.mp hfound
  have hpart : appearance.parts[i] ∈ appearance.parts := List.getElem_mem hi
  refine ⟨?_, h.names _ hpart⟩
  exact ((colors_names h.numbers _ (h.materials _ hpart)).imp fun material color hcolor =>
    congrArg Material.name hcolor.1).flip

omit [DecidableEq X] in
theorem ready_component {values : Str → Str} {baseID : Str} {appearance : Appearance X}
    {style : Style} (on : Nat → Bool) (h : Regular appearance style)
    (huntouched : Untouched values baseID appearance) :
    ∀ found ∈ appearance.parts.mapIdx (component baseID style on),
      Ready values style found.part found := by
  intro found hfound
  obtain ⟨i, hi, rfl⟩ := List.mem_mapIdx.mp hfound
  have hpart : appearance.parts[i] ∈ appearance.parts := List.getElem_mem hi
  refine ⟨colors_names h.numbers _ (h.materials _ hpart), h.names _ hpart, ?_⟩
  apply huntouched (component baseID style (fun _ => false) i appearance.parts[i])
  rw [model_default baseID h.default]
  exact List.mem_mapIdx.mpr ⟨i, hi, rfl⟩

/-- Editing with the sliders left alone keeps the colors of the parts that are switched on exactly
when the color of each of their materials has as much blue as green. -/
theorem kept_iff {values : Str → Str} {baseID : Str} {appearance : Appearance X} {style : Style}
    (on : Nat → Bool) (h : Regular appearance style)
    (huntouched : Untouched values baseID appearance) :
    Kept values baseID on appearance style ↔
      ∀ i part, appearance.parts[i]? = some part → on i → ∀ material ∈ part.materials,
        ∀ styleColor ∈ style.colors, styleColor.number = material.color →
          styleColor.blue = styleColor.green := by
  have hmap := map_component baseID style on appearance.parts
  have hincluded := included_eq (appearance.parts.mapIdx (component baseID style on))
    (by rw [hmap]; exact h.parts)
  rw [hmap] at hincluded
  obtain ⟨s, parts, hcollect, hs, -, hpainted⟩ :=
    collect_dataPart (paired_component baseID on h) appearance.parts (s := ⟨[], 0⟩) rfl
  obtain ⟨hdata, hstyles⟩ := data_parts values _ appearance hcollect
  rw [← hincluded] at hpainted
  have hshown := hpainted.imp (S := fun part part' =>
      List.Forall₂ (Shown style s.style) part.materials part'.materials) <| by
    rintro part part' ⟨found, hfound, hnames, hfinds⟩
    obtain ⟨hmem, -, rfl⟩ := componentOf_some hfound
    have hready := ready_component on h huntouched found hmem
    exact shown_materials hready.colors hfinds hnames hready.pristine
  have hkeeps := keeps_shown h.numbers hs.nodup hshown
  rw [Kept, switched_model baseID h.default]
  simp only [hdata, hstyles]
  constructor
  · rintro ⟨emitted, hemitted, hkept⟩ i part hi hon
    simp only [List.cons.injEq, Style.mk.injEq, true_and, and_true] at hemitted
    subst hemitted
    exact hkeeps.mp hkept part (mem_switched.mpr ⟨i, hi, hon⟩)
  · intro hblue
    refine ⟨s.style, rfl, hkeeps.mpr fun part hpart => ?_⟩
    obtain ⟨i, hi, hon⟩ := mem_switched.mp hpart
    exact hblue i part hi hon

/-- A helmet of one material, which is all that the appearance has. -/
def helmet (color : StyleColor) : Appearance Unit where
  slots := [⟨"Head".toList, [⟨"Helmet".toList,
    [⟨"Helmet".toList, [⟨"MaterialHelmet".toList, color.number, ()⟩], ()⟩]⟩]⟩]
  styles := [⟨"default".toList, [color]⟩]

/-- The values of its sliders, before they are moved. -/
def sliders (color : StyleColor) (id : Str) : Str :=
  if id = "helmet_part_0_color_0_popup_input_red".toList then color.red else color.green

theorem helmet_regular (color : StyleColor) :
    Regular (helmet color) ⟨"default".toList, [color]⟩ where
  default := rfl
  numbers := List.nodup_singleton _
  materials := by simp [helmet, Appearance.parts]
  parts := List.nodup_singleton _
  names := by simp [helmet, Appearance.parts]

def cyan : StyleColor := ⟨⟨"0".toList, "55".toList, "55".toList⟩, "0".toList⟩

def blueish : StyleColor := ⟨⟨"0".toList, "55".toList, "87".toList⟩, "0".toList⟩

theorem sliders_untouched {color : StyleColor} (h : color ∈ [cyan, blueish]) :
    Untouched (sliders color) "helmet".toList (helmet color) := by
  rcases List.mem_pair.mp h with rfl | rfl
  · unfold Untouched Pristine
    decide +kernel
  · unfold Untouched Pristine
    decide +kernel

theorem cyan_kept :
    Kept (sliders cyan) "helmet".toList (fun _ => true) (helmet cyan)
      ⟨"default".toList, [cyan]⟩ := by
  refine (kept_iff _ (helmet_regular cyan) (sliders_untouched (by simp))).mpr ?_
  intro i part _ _ material _ styleColor hmem _
  obtain rfl := List.mem_singleton.mp hmem
  rfl

theorem blueish_changed :
    Regular (helmet blueish) ⟨"default".toList, [blueish]⟩ ∧
      Untouched (sliders blueish) "helmet".toList (helmet blueish) ∧
      ¬Kept (sliders blueish) "helmet".toList (fun _ => true) (helmet blueish)
        ⟨"default".toList, [blueish]⟩ := by
  refine ⟨helmet_regular _, sliders_untouched (by simp), ?_⟩
  rintro ⟨emitted, hstyles, hkept⟩
  have hcolor : (data (sliders blueish)
      (switched (fun _ => true) (model "helmet".toList (helmet blueish))) (helmet blueish)).styles =
      [⟨"default".toList, [cyan]⟩] := by
    decide +kernel
  obtain rfl : [cyan] = emitted := by
    simpa using hcolor.symm.trans hstyles
  revert hkept
  unfold Keeps
  decide +kernel

end Starfall.Coloring
