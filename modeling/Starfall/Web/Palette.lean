import Starfall.Web.Coloring

/-! The colors of what `data` returns: its style numbers them from 0 on, and each material of a part
that is switched on names the one that its own sliders hold. -/

namespace Starfall.Coloring

open Components (decimal)
open ProofKit.Folds

variable {X : Type}

theorem Numbered.length {s : Emitted} (h : Numbered s) : s.style.length = s.nextNumber := by
  have hlength := congrArg List.length h
  simpa using hlength

variable [DecidableEq X]

/-- Among components of parts that differ, the one of a part that is switched on is found for it. -/
theorem componentOf_self {components : List (PartComponent X)}
    (h : (components.map (·.part)).Nodup) {component : PartComponent X}
    (hmem : component ∈ components) {found : PartComponent X}
    (hfound : componentOf components component.part = some found) : found = component := by
  obtain ⟨hfound, -, hpart⟩ := componentOf_some hfound
  exact List.inj_on_of_nodup_map h hfound hmem hpart

/-- What `data` paints are the parts of the components that are switched on. -/
theorem painted_components {values : Str → Str} {components : List (PartComponent X)}
    (hnodup : (components.map (·.part)).Nodup) {emitted : List StyleColor} {parts : List (Part X)}
    (h : List.Forall₂ (fun part part' => ∃ component,
      componentOf components part = some component ∧ Painted values emitted component part')
      ((components.map (·.part)).filter fun part => (componentOf components part).isSome) parts) :
    List.Forall₂ (Painted values emitted) (components.filter (·.on)) parts := by
  rw [← included_eq components hnodup, List.forall₂_map_left_iff] at h
  have hmem : ∀ component ∈ components.filter (·.on), component ∈ components :=
    fun component hcomponent => List.mem_of_mem_filter hcomponent
  refine ((List.forall₂_and_left _ _).mpr ⟨hmem, h⟩).imp ?_
  rintro component part' ⟨hcomponent, found, hfound, hpainted⟩
  rwa [componentOf_self hnodup hcomponent hfound] at hpainted

omit [DecidableEq X] in
/-- The colors of a component are those of the materials of its part. -/
theorem material_component (baseID : Str) {appearance : Appearance X} {style : Style}
    (on : Nat → Bool) (h : Regular appearance style) :
    ∀ found ∈ appearance.parts.mapIdx (component baseID style on),
      found.colors.map (·.material) = found.part.materials := by
  intro found hfound
  obtain ⟨i, hi, rfl⟩ := List.mem_mapIdx.mp hfound
  have hnames := colors_names h.numbers (baseID ++ "_part_".toList ++ decimal i)
    (h.materials _ (List.getElem_mem hi))
  have hsame := hnames.imp fun material color hcolor => hcolor.1.symm
  rw [← List.forall₂_map_right_iff, List.forall₂_eq_eq_eq] at hsame
  exact hsame.symm

/-- The style of what `data` returns has the numbers from 0 on, each once, and every material of a
part that is switched on has the number there of a color that is the one of its own sliders. -/
def Consistent (values : Str → Str) (components : List (PartComponent X))
    (appearance : Appearance X) : Prop :=
  (∀ component ∈ components, component.colors.map (·.material) = component.part.materials) ∧
  ∃ emitted, (data values components appearance).styles = [⟨"default".toList, emitted⟩] ∧
    emitted.map (·.number) = (List.range emitted.length).map decimal ∧
    (emitted.map (·.number)).Nodup ∧
    List.Forall₂ (Painted values emitted) (components.filter (·.on))
      (data values components appearance).parts

theorem data_consistent (values : Str → Str) (baseID : Str) (on : Nat → Bool)
    {appearance : Appearance X} {style : Style} (h : Regular appearance style) :
    Consistent values (switched on (model baseID appearance)) appearance := by
  have hmap := map_component baseID style on appearance.parts
  rw [switched_model baseID h.default on]
  have hnumbered : Numbered ⟨[], 0⟩ := rfl
  obtain ⟨s, parts, hcollect, hs, -, hpainted⟩ :=
    @collect_dataPart X _ values _ (paired_component baseID on h) appearance.parts _ hnumbered
  obtain ⟨hdata, hstyles⟩ := data_parts values _ appearance hcollect
  refine ⟨material_component baseID on h, s.style, hstyles, ?_, hs.nodup, ?_⟩
  · rw [hs.length]
    exact hs
  · rw [hdata]
    apply painted_components (by rw [hmap]; exact h.parts)
    rwa [hmap]

/-- Two parts of a helmet, of which the second has a material of the color of the first. -/
def plumed : Appearance Unit where
  slots := [⟨"Head".toList, [⟨"Helmet".toList,
    [⟨"Helmet".toList, [⟨"MaterialHelmet".toList, "4".toList, ()⟩], ()⟩,
      ⟨"Plume".toList, [⟨"MaterialShaft".toList, "4".toList, ()⟩,
        ⟨"MaterialFeather".toList, "2".toList, ()⟩], ()⟩]⟩]⟩]
  styles := [⟨"default".toList, [{ cyan with number := "4".toList },
    { blueish with number := "2".toList }]⟩]

theorem plumed_regular : Regular plumed ⟨"default".toList,
    [{ cyan with number := "4".toList }, { blueish with number := "2".toList }]⟩ where
  default := by decide
  numbers := by decide
  materials := by decide
  parts := by decide
  names := by decide

theorem plumed_consistent :
    Consistent (sliders cyan)
      (switched (fun _ => true) (model "helmet".toList plumed)) plumed :=
  data_consistent _ _ _ plumed_regular

end Starfall.Coloring
