import Starfall.Web.Coloring

/-! The places of an appearance that `data` returns: `Model` makes a component with its own toggle
for each, and `data` looks for a component by what its part is. -/

namespace Starfall.Coloring

open ProofKit.Folds

variable {X : Type}

/-- The number of components that `Model` makes for each place. -/
def Appearance.defaults (appearance : Appearance X) : Nat :=
  (appearance.styles.filter fun style => style.name = "default".toList).length

/-- Whether a component of the `i`th place is switched on. -/
def switchedOn (on : Nat → Bool) (appearance : Appearance X) (i : Nat) : Bool :=
  (List.range appearance.defaults).any fun k => on (k * appearance.parts.length + i)

/-- The flags of the places that are switched on. -/
def flags (on : Nat → Bool) (appearance : Appearance X) : List Bool :=
  (List.range appearance.parts.length).map (switchedOn on appearance)

def Material.bare (material : Material X) : Material X := { material with color := [] }

/-- A part apart from its colors. -/
def Part.bare (part : Part X) : Part X := { part with materials := part.materials.map (·.bare) }

def Mesh.bare (mesh : Mesh X) : Mesh X := { mesh with parts := mesh.parts.map (·.bare) }

def Slot.bare (slot : Slot X) : Slot X := { slot with meshes := slot.meshes.map (·.bare) }

/-- The part at the next place, if the flag of the place says so. -/
def keepPart (flags : List Bool) (part : Part X) : List Bool × Option (Part X) :=
  (flags.tail, if flags.head? = some true then some part.bare else none)

def keepMesh (flags : List Bool) (mesh : Mesh X) : List Bool × Option (Mesh X) :=
  let (flags, parts) := collect keepPart flags mesh.parts
  (flags, if parts.length > 0 then some { mesh with parts } else none)

def keepSlot (flags : List Bool) (slot : Slot X) : List Bool × Option (Slot X) :=
  let (flags, meshes) := collect keepMesh flags slot.meshes
  (flags, if meshes.length > 0 then some { slot with meshes } else none)

/-- The parts at the places with a flag, and the meshes and slots that have such a part. -/
def keep (flags : List Bool) (slots : List (Slot X)) : List (Slot X) :=
  (collect keepSlot flags slots).2

/-- `data` returns the parts at the places that are switched on. -/
def Contained [DecidableEq X] (values : Str → Str) (baseID : Str) (on : Nat → Bool)
    (appearance : Appearance X) : Prop :=
  (data values (switched on (model baseID appearance)) appearance).slots.map (·.bare) =
    keep (flags on appearance) appearance.slots

/-- The components are those of the parts, once for each default style. -/
theorem model_parts (baseID : Str) (appearance : Appearance X) :
    (model baseID appearance).map (·.part) =
      (List.replicate appearance.defaults appearance.parts).flatten := by
  rw [model, flatMap_ite, List.map_flatMap, Appearance.defaults]
  generalize appearance.styles.filter (fun style => style.name = "default".toList) = styles
  induction styles with
  | nil => rfl
  | cons style styles ih =>
    rw [List.flatMap_cons, List.length_cons, List.replicate_succ, List.flatten_cons, ← ih]
    congr 1
    exact map_component baseID style (fun _ => false) appearance.parts

theorem getElem?_flatten_replicate {A : Type} (as : List A) {d k i : Nat} (hk : k < d)
    (hi : i < as.length) : (List.replicate d as).flatten[k * as.length + i]? = as[i]? := by
  induction d generalizing k with
  | zero => omega
  | succ d ih =>
    rw [List.replicate_succ, List.flatten_cons]
    cases k with
    | zero => rw [Nat.zero_mul, Nat.zero_add, List.getElem?_append_left hi]
    | succ k =>
      have hindex : (k + 1) * as.length + i = as.length + (k * as.length + i) := by
        rw [Nat.succ_mul]
        omega
      rw [hindex, List.getElem?_append_right (by omega), Nat.add_sub_cancel_left]
      exact ih (by omega)

/-- A component of a part that is switched on stands at a place of that part. -/
theorem componentOf_isSome [DecidableEq X] (baseID : Str) (on : Nat → Bool)
    (appearance : Appearance X) (part : Part X) :
    (componentOf (switched on (model baseID appearance)) part).isSome ↔
      ∃ i, appearance.parts[i]? = some part ∧ switchedOn on appearance i := by
  have hpart : ∀ m : Nat, ((model baseID appearance)[m]?).map PartComponent.part =
      (List.replicate appearance.defaults appearance.parts).flatten[m]? := by
    intro m
    rw [← model_parts baseID, List.getElem?_map]
  have hlength : (model baseID appearance).length =
      appearance.defaults * appearance.parts.length := by
    rw [← List.length_map PartComponent.part, model_parts]
    simp
  simp only [componentOf, List.find?_isSome, decide_eq_true_eq, switched, List.mem_mapIdx,
    switchedOn, List.any_eq_true, List.mem_range]
  constructor
  · rintro ⟨_, ⟨m, hm, rfl⟩, hon, rfl⟩
    rw [hlength] at hm
    have hpos : 0 < appearance.parts.length := by
      apply Nat.pos_of_ne_zero
      intro hzero
      rw [hzero] at hm
      omega
    have hk : m / appearance.parts.length < appearance.defaults :=
      Nat.div_lt_of_lt_mul (by rwa [Nat.mul_comm])
    have hsplit : m / appearance.parts.length * appearance.parts.length +
        m % appearance.parts.length = m := by
      rw [Nat.mul_comm]
      exact Nat.div_add_mod m _
    refine ⟨m % appearance.parts.length, ?_, m / appearance.parts.length, hk, ?_⟩
    · rw [← getElem?_flatten_replicate _ hk (Nat.mod_lt m hpos), hsplit, ← hpart,
        List.getElem?_eq_getElem]
      rfl
    · rwa [hsplit]
  · rintro ⟨i, hi, k, hk, hon⟩
    obtain ⟨hlt, -⟩ := List.getElem?_eq_some_iff.mp hi
    have hfound := hpart (k * appearance.parts.length + i)
    rw [getElem?_flatten_replicate _ hk hlt, hi, Option.map_eq_some_iff] at hfound
    obtain ⟨component, hcomponent, rfl⟩ := hfound
    obtain ⟨hm, rfl⟩ := List.getElem?_eq_some_iff.mp hcomponent
    exact ⟨_, ⟨_, hm, rfl⟩, hon, rfl⟩

/-- A loop that takes flags for what it visits, beside one that does not need them. -/
theorem collect_flags {S A B C : Type} {body : S → A → S × Option B}
    {body' : List Bool → A → List Bool × Option C} {flags : A → List Bool} {g : B → C}
    (h : ∀ s a rest, body' (flags a ++ rest) a = (rest, (body s a).2.map g)) (s : S)
    (as : List A) (rest : List Bool) :
    collect body' (as.flatMap flags ++ rest) as = (rest, (collect body s as).2.map g) := by
  induction as generalizing s with
  | nil => rfl
  | cons a as ih =>
    rw [List.flatMap_cons, List.append_assoc, collect_cons, h s, ih (body s a).1, collect_cons,
      List.map_append]
    cases (body s a).2 <;> rfl

theorem paint_bare (name number : Str) (materials : List (Material X)) :
    (paint name number materials).map (·.bare) = materials.map (·.bare) := by
  rw [paint, List.map_map]
  apply List.map_congr_left
  intro material _
  show (if _ then _ else material).bare = _
  split <;> rfl

theorem address_bare (name : Str) (materials : List (Material X)) (nextNumber : Nat)
    (number : Str) :
    (address name materials nextNumber number).1.map (·.bare) = materials.map (·.bare) := by
  induction materials generalizing nextNumber number with
  | nil => rfl
  | cons material materials ih =>
    rw [address]
    split
    · exact congrArg (material.bare :: ·) (ih _ _)
    · exact congrArg (material.bare :: ·) (ih _ _)

theorem reuse_bare (values : Str → Str) (style : List StyleColor) (colors : List (Color X))
    (materials : List (Material X)) :
    (reuse values style colors materials).2.map (·.bare) = materials.map (·.bare) := by
  have hstep : ∀ s color,
      (reuseColor values style s color).2.map (·.bare) = s.2.map (Material.bare (X := X)) := by
    intro s color
    rw [reuseColor]
    split
    · exact paint_bare _ _ _
    · rfl
  rw [reuse]
  generalize ([] : List (Color X)) = kept
  induction colors generalizing kept materials with
  | nil => rfl
  | cons color colors ih =>
    rw [List.foldl_cons]
    exact (ih _ _).trans (hstep _ _)

theorem includeColors_bare (values : Str → Str) (colors : List (Color X)) (nextNumber : Nat)
    (materials : List (Material X)) :
    (includeColors values colors nextNumber materials).2.2.map (·.bare) =
      materials.map (·.bare) := by
  rw [includeColors]
  generalize ([] : List StyleColor) = included
  induction colors generalizing included nextNumber materials with
  | nil => rfl
  | cons color colors ih =>
    rw [List.foldl_cons]
    exact (ih _ _ _).trans (address_bare _ _ _ _)

section Found

variable [DecidableEq X] (values : Str → Str) (components : List (PartComponent X))

/-- The flag of a part: whether there is a component for it. -/
def found (part : Part X) : Bool := (componentOf components part).isSome

/-- `data` paints the parts that it returns, and changes nothing else in them. -/
theorem dataPart_keep (s : Emitted) (part : Part X) (rest : List Bool) :
    keepPart (found components part :: rest) part =
      (rest, (dataPart values components s part).2.map (·.bare)) := by
  rw [keepPart, dataPart, found]
  cases componentOf components part with
  | none => rfl
  | some component =>
    refine Prod.ext rfl (congrArg some ?_)
    have hincluded := includeColors_bare values
      (reuse values s.style component.colors part.materials).1 s.nextNumber
      (reuse values s.style component.colors part.materials).2
    rw [reuse_bare] at hincluded
    exact congrArg (fun materials => { part with materials }) hincluded.symm

theorem dataMesh_keep (s : Emitted) (mesh : Mesh X) (rest : List Bool) :
    keepMesh (mesh.parts.map (found components) ++ rest) mesh =
      (rest, (dataMesh values components s mesh).2.map (·.bare)) := by
  have hpart (s : Emitted) (part : Part X) (rest : List Bool) :
      keepPart ([found components part] ++ rest) part = _ :=
    dataPart_keep values components s part rest
  have hparts := collect_flags hpart s mesh.parts rest
  rw [← List.map_eq_flatMap] at hparts
  rw [keepMesh, hparts, dataMesh]
  simp only [List.length_map]
  split <;> rfl

theorem dataSlot_keep (s : Emitted) (slot : Slot X) (rest : List Bool) :
    keepSlot ((slot.meshes.flatMap (·.parts)).map (found components) ++ rest) slot =
      (rest, (dataSlot values components s slot).2.map (·.bare)) := by
  have hmeshes := collect_flags (dataMesh_keep values components) s slot.meshes rest
  rw [← List.map_flatMap] at hmeshes
  rw [keepSlot, hmeshes, dataSlot]
  simp only [List.length_map]
  split <;> rfl

theorem data_keep (appearance : Appearance X) :
    (data values components appearance).slots.map (·.bare) =
      keep (appearance.parts.map (found components)) appearance.slots := by
  have hslots := collect_flags (dataSlot_keep values components) ⟨[], 0⟩ appearance.slots []
  rw [← List.map_flatMap, ← List.flatMap_assoc, List.append_nil] at hslots
  rw [keep, Appearance.parts, hslots]
  rfl

end Found

theorem collect_keepPart (flags : List Bool) (parts : List (Part X))
    (h : flags.length = parts.length) :
    (collect keepPart flags parts).2.length = flags.count true := by
  induction parts generalizing flags with
  | nil =>
    obtain rfl := List.eq_nil_of_length_eq_zero h
    rfl
  | cons part parts ih =>
    obtain ⟨flag, flags, rfl⟩ := List.exists_cons_of_length_eq_add_one h
    have hrest := ih flags (by simpa using h)
    rw [collect_cons, List.length_append]
    show _ + (collect keepPart flags parts).2.length = _
    rw [hrest]
    cases flag
    · simp [keepPart]
    · simp [keepPart, Nat.add_comm]

/-- As many parts are kept as there are flags set. -/
theorem length_keep (flags : List Bool) (slots : List (Slot X))
    (h : flags.length = ((slots.flatMap (·.meshes)).flatMap (·.parts)).length) :
    (((keep flags slots).flatMap (·.meshes)).flatMap (·.parts)).length = flags.count true := by
  have hmesh : ∀ flags (mesh : Mesh X), ((keepMesh flags mesh).1,
      (keepMesh flags mesh).2.toList.flatMap (·.parts)) =
      collect keepPart flags mesh.parts := by
    intro flags mesh
    exact Prod.ext rfl (flatMap_pushed _ (fun parts => { mesh with parts }) _ rfl)
  have hslot : ∀ flags (slot : Slot X), ((keepSlot flags slot).1,
      (keepSlot flags slot).2.toList.flatMap fun slot => slot.meshes.flatMap (·.parts)) =
      collect keepPart flags (slot.meshes.flatMap (·.parts)) := by
    intro flags slot
    have hmeshes := flatMap_pushed (collect keepMesh flags slot.meshes).2
      (fun meshes => { slot with meshes }) Slot.meshes rfl
    rw [← collect_flatMap hmesh, ← List.flatMap_assoc]
    exact Prod.ext rfl (congrArg (List.flatMap (·.parts)) hmeshes)
  have hslots := congrArg Prod.snd (collect_flatMap hslot flags slots)
  rw [List.flatMap_assoc] at h ⊢
  rw [keep, ← collect_keepPart flags _ h]
  exact congrArg List.length hslots

theorem eq_of_count {flags flags' : List Bool}
    (h : List.Forall₂ (fun flag flag' : Bool => flag = true → flag' = true) flags flags')
    (hcount : flags.count true = flags'.count true) : flags = flags' := by
  have hle : ∀ {flags flags' : List Bool},
      List.Forall₂ (fun flag flag' : Bool => flag = true → flag' = true) flags flags' →
      flags.count true ≤ flags'.count true := by
    intro flags flags' h
    induction h with
    | nil => exact Nat.le_refl _
    | @cons flag flag' _ _ himp _ ih =>
      rw [List.count_cons, List.count_cons]
      apply Nat.add_le_add ih
      cases flag with
      | false => simp
      | true => simp [himp rfl]
  induction h with
  | nil => rfl
  | @cons flag flag' flags flags' himp hrest ih =>
    have hrest' := hle hrest
    cases flag with
    | true =>
      rw [himp rfl] at hcount ⊢
      rw [ih (by simpa using hcount)]
    | false =>
      cases flag' with
      | true =>
        simp at hcount
        omega
      | false => rw [ih (by simpa using hcount)]

variable [DecidableEq X]

/-- There is a component for the part of each place that is switched on. -/
theorem flags_found (baseID : Str) (on : Nat → Bool) (appearance : Appearance X) :
    List.Forall₂ (fun flag flag' : Bool => flag = true → flag' = true) (flags on appearance)
      (appearance.parts.map (found (switched on (model baseID appearance)))) := by
  rw [List.forall₂_iff_get]
  refine ⟨by simp [flags], fun i hi _ hon => ?_⟩
  have hlt : i < appearance.parts.length := by simpa [flags] using hi
  simp only [flags, List.get_eq_getElem, List.getElem_map, List.getElem_range] at hon ⊢
  rw [found, componentOf_isSome]
  exact ⟨i, List.getElem?_eq_getElem hlt, hon⟩

theorem contained_flags (values : Str → Str) (baseID : Str) (on : Nat → Bool)
    (appearance : Appearance X) :
    Contained values baseID on appearance ↔ flags on appearance =
      appearance.parts.map (found (switched on (model baseID appearance))) := by
  rw [Contained, data_keep]
  constructor
  · intro h
    apply eq_of_count (flags_found baseID on appearance)
    have hkept := congrArg
      (fun slots => ((slots.flatMap (·.meshes)).flatMap (·.parts)).length) h
    rw [length_keep _ _ (by simp [Appearance.parts]),
      length_keep _ _ (by simp [flags, Appearance.parts])] at hkept
    exact hkept.symm
  · intro h
    rw [← h]

/-- `data` returns the parts at the places that are switched on exactly when, of any two places
with equal parts, both or neither are. -/
theorem contained_iff (values : Str → Str) (baseID : Str) (on : Nat → Bool)
    (appearance : Appearance X) :
    Contained values baseID on appearance ↔
      ∀ i j, i < appearance.parts.length → appearance.parts[i]? = appearance.parts[j]? →
        switchedOn on appearance i = switchedOn on appearance j := by
  rw [contained_flags]
  have hplace : ∀ i (hi : i < appearance.parts.length),
      (appearance.parts.map (found (switched on (model baseID appearance))))[i]? =
        some (found (switched on (model baseID appearance)) appearance.parts[i]) := by
    intro i hi
    rw [List.getElem?_map, List.getElem?_eq_getElem hi]
    rfl
  have hflag : ∀ i, i < appearance.parts.length →
      (flags on appearance)[i]? = some (switchedOn on appearance i) := by
    intro i hi
    rw [flags, List.getElem?_map, List.getElem?_range hi]
    rfl
  constructor
  · intro h i j hi hsame
    obtain ⟨hj, hparts⟩ := List.getElem?_eq_some_iff.mp (hsame ▸ List.getElem?_eq_getElem hi)
    have hfound := hplace j hj
    rw [hparts, ← hplace i hi, ← h, hflag i hi, hflag j hj] at hfound
    exact (Option.some.inj hfound).symm
  · intro h
    apply List.ext_getElem (by simp [flags])
    intro i hi hi'
    have hlt : i < appearance.parts.length := by simpa using hi'
    rw [← Option.some.injEq, ← List.getElem?_eq_getElem, ← List.getElem?_eq_getElem, hflag i hlt,
      hplace i hlt, Option.some.injEq, Bool.eq_iff_iff, found, componentOf_isSome]
    constructor
    · exact fun hon => ⟨i, List.getElem?_eq_getElem hlt, hon⟩
    · rintro ⟨j, hj, hon⟩
      rwa [h i j hlt (by rw [hj, List.getElem?_eq_getElem hlt])]

/-- A pair of gloves, which are the same part in two slots. -/
def gloves : Appearance Unit where
  slots := [⟨"Left".toList, [⟨"Glove".toList, [⟨"Glove".toList, [], ()⟩]⟩]⟩,
    ⟨"Right".toList, [⟨"Glove".toList, [⟨"Glove".toList, [], ()⟩]⟩]⟩]
  styles := [⟨"default".toList, []⟩]

/-- When the left glove is switched on, `data` returns both. -/
theorem gloves_not_contained :
    ¬Contained (fun _ => []) "gloves".toList (fun i => i = 0) gloves := by
  intro h
  have hslots := congrArg List.length h
  rw [List.length_map] at hslots
  revert hslots
  decide +kernel

end Starfall.Coloring
