import Mathlib.Data.List.FinRange
import Mathlib.Tactic.Choose
import Starfall.Common.VarText
import Starfall.ProofKit.Runs

/-! The scene in which a character is edited (`EditCharacterGuiScript.js`).  Each part has a color
out of a list, and its material on the mesh is given that color until the scene is left.  The colors
are saved as a text for the server. -/

namespace Starfall.EditCharacter

open ProofKit.Runs Vars

/-- A color, whose alpha is not saved. -/
structure Color (R : Type) where
  r : R
  g : R
  b : R
  a : R

structure EditCharacterColor (R : Type) where
  name : String
  color : Color R

/-- A part, with the colors of its materials.  The material that is rendered belongs to a mesh. -/
structure EditCharacterItem (R : Type) where
  name : String
  replacePartName : String
  replaceMaterialName : String
  originalMaterial : Color R
  material : Color R
  renderedMaterial : Option Nat
  selectedColor : Int

/-- A material of a mesh and a child of the player's object with its materials, if it has a
`MeshRenderer`. -/
structure SharedMaterial where
  name : String
  id : Nat

structure PlayerChildObject where
  name : String
  sharedMaterials : Option (List SharedMaterial)

/-- The script, with the colors of the materials of the meshes, and with what it has pushed to
`consoleQueue`. -/
structure Script (R : Type) where
  parts : List (EditCharacterItem R)
  materials : Nat → Color R
  showSaveDialog : Bool
  saveFileDestination : List UInt16
  consoleQueue : List Str

variable {R : Type}

def EditCharacterItem.new (n rp rm : String) (m : Color R) : EditCharacterItem R where
  name := n
  replacePartName := rp
  replaceMaterialName := rm
  originalMaterial := m
  material := m
  renderedMaterial := none
  selectedColor := 0

def setMaterial (materials : Nat → Color R) (renderedMaterial : Option Nat) (c : Color R) :
    Nat → Color R :=
  fun id => if renderedMaterial = some id then c else materials id

/-- `ResetMaterial`, in what it does to the materials. -/
def EditCharacterItem.resetMaterial (item : EditCharacterItem R) (materials : Nat → Color R) :
    Nat → Color R :=
  setMaterial materials item.renderedMaterial item.originalMaterial

/-- The names of the parts, of their objects and of their materials. -/
def partNames : List (String × String × String) :=
  [("Helmet", "Helmet", "MaterialHelmet"), ("Visor", "Helmet", "MaterialVisor"),
    ("Trim", "Helmet", "MaterialVisorEdge"), ("Body", "Body", "MaterialBody"),
    ("Torso", "Torso", "MaterialTorso"), ("Right Leg", "Right_Leg", "RightLegMaterial"),
    ("Right Foot", "Right_Foot", "RightFootMaterial"),
    ("Right Arm", "Right_Arm", "RightArmMainMaterial"),
    ("Right Hand", "Right_Hand", "RightHandMaterial"),
    ("Left Leg", "Left_Leg", "LeftLegMaterial"), ("Left Foot", "Left_Foot", "LeftFootMaterial"),
    ("Left Arm", "Left_Arm", "LeftArmMainMaterial"),
    ("Left Hand", "Left_Hand", "LeftHandMaterial")]

/-- A round of the loop of `Start` over the children, for one part. -/
def EditCharacterItem.matchChild (item : EditCharacterItem R) (child : PlayerChildObject) :
    EditCharacterItem R :=
  if item.replacePartName = child.name then
    match child.sharedMaterials with
    | some sharedMaterials => sharedMaterials.foldl (fun item mat =>
        if item.replaceMaterialName = mat.name then
          { item with renderedMaterial := some mat.id }
        else item) item
    | none => item
  else item

/-- `Start`, with the colors of the inspector's materials, one for each part. -/
def start (inspector : Fin 13 → Color R) (transform : List PlayerChildObject)
    (materials : Nat → Color R) : Script R where
  parts := transform.foldl (fun parts child => parts.map (·.matchChild child))
    ((List.finRange 13).map fun i =>
      let (n, rp, rm) := partNames.get i
      .new n rp rm (inspector i))
  materials := materials
  showSaveDialog := false
  saveFileDestination := []
  consoleQueue := []

def onDestroy (s : Script R) : Nat → Color R :=
  s.parts.foldl (fun materials part => part.resetMaterial materials) s.materials

variable (format : R → Str)

/-- What `BuildGroup` appends for a part, without the comma after it. -/
def partText (part : EditCharacterItem R) : Str :=
  quote (Str.ofString part.name) ++ Str.ofString ":" ++ Str.ofString "\x7b" ++
    Str.ofString "\"type\" : " ++ Str.ofString "\"color\"" ++ Str.ofString ", " ++
    Str.ofString "\"red\" : " ++ quote (format part.material.r) ++ Str.ofString ", " ++
    Str.ofString "\"green\" : " ++ quote (format part.material.g) ++ Str.ofString ", " ++
    Str.ofString "\"blue\" : " ++ quote (format part.material.b) ++ Str.ofString "\x7d"

/-- `BuildGroup` -/
def buildGroup (groupName : String) (group : List (EditCharacterItem R)) : Str :=
  quote (Str.ofString groupName) ++ Str.ofString ":" ++ Str.ofString "\x7b" ++
    Str.ofString "\"type\":\"group\"" ++ Str.ofString "," ++ quote (Str.ofString "content") ++
    Str.ofString ":" ++ Str.ofString "\x7b" ++
    List.intercalate (Str.ofString ", ") (group.map (partText format)) ++ Str.ofString "\x7d" ++
    Str.ofString "\x7d"

def findPart (parts : List (EditCharacterItem R)) (name : String) : Option (EditCharacterItem R) :=
  parts.find? fun part => part.name = name

/-- The groups with the names of their parts. -/
def groups : List (String × List String) :=
  [("head", ["Helmet", "Visor", "Trim"]), ("top", ["Body", "Left Arm", "Right Arm"]),
    ("bottom", ["Torso", "Left Leg", "Right Leg"]), ("hands", ["Left Hand", "Right Hand"]),
    ("feet", ["Left Foot", "Right Foot"])]

/-- What the button `OK` builds.  A part that is not there ends it with a
`NullReferenceException`. -/
def build (parts : List (EditCharacterItem R)) : Option Str := do
  let groups ← groups.mapM fun group => do
    let content ← group.2.mapM (findPart parts)
    pure (buildGroup format group.1 content)
  pure (Str.ofString "\x7b" ++ Str.ofString "\"head\" : \x7b " ++
    Str.ofString "\"name\" : \"Parts\"" ++ Str.ofString "," ++
    Str.ofString "\"datetime\" : \"--\" \x7d" ++ Str.ofString "," ++
    Str.ofString "\"body\" : \x7b " ++ List.intercalate (Str.ofString ",") groups ++
    Str.ofString "\x7d" ++ Str.ofString "," ++ Str.ofString "\"foot\" : \x7b\x7d" ++
    Str.ofString "\x7d")

/-- The buttons beside a part, where the name of the color is one. -/
inductive Button
  | previous
  | color
  | next
  deriving DecidableEq

/-- What the user does to one of the controls.  At `OK` the disk says whether the file can be
deleted, created and written. -/
inductive Click
  | part (i : Nat) (button : Button)
  | save
  | type (saveFileDestination : List UInt16)
  | ok (file : Bool)
  | cancel
  deriving DecidableEq

/-- The button beside the part at `i` that is clicked. -/
def Click.button (click : Click) (i : Nat) : Option Button :=
  match click with
  | .part j button => if i = j then some button else none
  | _ => none

variable (standardColors : List (EditCharacterColor R))

/-- `standardColors[i]`, which throws an `IndexOutOfRangeException` outside of the array. -/
def standardColor (i : Int) : Option (EditCharacterColor R) :=
  if 0 ≤ i then standardColors[i.toNat]? else none

/-- The button `<` beside a part. -/
def EditCharacterItem.back (part : EditCharacterItem R) (button : Option Button) :
    EditCharacterItem R :=
  if button = some .previous ∧ part.selectedColor - 1 > -1 then
    { part with selectedColor := part.selectedColor - 1 } else part

/-- A round of the loop of `OnGUI` over the parts. -/
def partGUI (button : Option Button) (part : EditCharacterItem R) (materials : Nat → Color R) :
    Option (EditCharacterItem R × (Nat → Color R)) :=
  if standardColors.length > 0 then do
    let part := part.back button
    let shown ← standardColor standardColors part.selectedColor
    if button = some .color ∧ part.selectedColor ≠ -1 then
      pure ({ part with material := shown.color },
        setMaterial materials part.renderedMaterial shown.color)
    else if button = some .next ∧ part.selectedColor + 1 < standardColors.length then
      pure ({ part with selectedColor := part.selectedColor + 1 }, materials)
    else
      pure (part, materials)
  else
    pure (part, materials)

/-- The loop over the parts from the one at `i` on. -/
def partsGUI (click : Click) (i : Nat) :
    List (EditCharacterItem R) → (Nat → Color R) →
      Option (List (EditCharacterItem R) × (Nat → Color R))
  | [], materials => pure ([], materials)
  | part :: parts, materials => do
    let (part, materials) ← partGUI standardColors (click.button i) part materials
    let (parts, materials) ← partsGUI click (i + 1) parts materials
    pure (part :: parts, materials)

/-- The save dialog, if it is shown.  The exceptions of `File` and `FileStream` come before anything
is pushed, and the next `OnGUI` goes on with what there is. -/
def saveDialog (click : Click) (s : Script R) : Option (Script R) :=
  match click with
  | .type saveFileDestination => pure { s with saveFileDestination }
  | .ok file =>
    if s.saveFileDestination ≠ [] ∧ file then do
      let json ← build format s.parts
      pure { s with consoleQueue := s.consoleQueue ++ [json] }
    else pure s
  | .cancel => pure { s with showSaveDialog := false, saveFileDestination := [] }
  | _ => pure s

/-- `OnGUI` for a click.  There is nothing after an index out of range or a null reference. -/
def onGUI (click : Click) (s : Script R) : Option (Script R) := do
  let (parts, materials) ← partsGUI standardColors click 0 s.parts s.materials
  let s := { s with parts, materials, showSaveDialog := s.showSaveDialog || click = .save }
  if s.showSaveDialog then saveDialog format click s else pure s

/-- The scene from its start on. -/
def scene (inspector : Fin 13 → Color R) (transform : List PlayerChildObject)
    (materials : Nat → Color R) : System (Script R) Click where
  init s := s = start inspector transform materials
  step s click s' := onGUI format standardColors click s = some s'

variable {format standardColors}

/-- What a part keeps from the start on. -/
def EditCharacterItem.kept (part : EditCharacterItem R) :
    String × String × String × Color R × Option Nat :=
  (part.name, part.replacePartName, part.replaceMaterialName, part.originalMaterial,
    part.renderedMaterial)

/-- The selected color is one of those that there are, if there are any. -/
def Selected (standardColors : List (EditCharacterColor R)) (i : Int) : Prop :=
  0 ≤ i ∧ (0 < standardColors.length → i < standardColors.length)

/-- A part has its own color or one of those that there are. -/
def Colored (standardColors : List (EditCharacterColor R)) (part : EditCharacterItem R) : Prop :=
  part.material = part.originalMaterial ∨ ∃ c ∈ standardColors, part.material = c.color

/-- The material of the part is the only one that may have changed. -/
def Touches (rendered : Option Nat) (materials materials' : Nat → Color R) : Prop :=
  ∀ id, rendered ≠ some id → materials' id = materials id

/-- The mesh shows the color that the part has. -/
def Shown (materials : Nat → Color R) (part : EditCharacterItem R) : Prop :=
  ∀ id, part.renderedMaterial = some id → materials id = part.material

/-- Two parts do not have one material of a mesh. -/
def Apart (part other : EditCharacterItem R) : Prop :=
  ∀ id, part.renderedMaterial = some id → other.renderedMaterial ≠ some id

structure PartStep (standardColors : List (EditCharacterColor R)) (part part' : EditCharacterItem R)
    (materials materials' : Nat → Color R) : Prop where
  kept : part'.kept = part.kept
  selected : Selected standardColors part.selectedColor →
    Selected standardColors part'.selectedColor
  colored : Colored standardColors part → Colored standardColors part'
  shown : Shown materials part → Shown materials' part'
  materials : Touches part.renderedMaterial materials materials'

theorem EditCharacterItem.rendered_kept {part part' : EditCharacterItem R}
    (h : part'.kept = part.kept) : part'.renderedMaterial = part.renderedMaterial :=
  congrArg (fun kept => kept.2.2.2.2) h

theorem EditCharacterItem.original_kept {part part' : EditCharacterItem R}
    (h : part'.kept = part.kept) : part'.originalMaterial = part.originalMaterial :=
  congrArg (fun kept => kept.2.2.2.1) h

theorem names_kept {parts parts' : List (EditCharacterItem R)}
    (h : parts'.map (·.kept) = parts.map (·.kept)) :
    parts'.map (·.name) = parts.map (·.name) := by
  have hkept := congrArg (List.map fun kept => kept.1) h
  rwa [List.map_map, List.map_map] at hkept

theorem Touches.refl (rendered : Option Nat) (materials : Nat → Color R) :
    Touches rendered materials materials := fun _ _ => rfl

theorem touches_setMaterial (rendered : Option Nat) (materials : Nat → Color R) (c : Color R) :
    Touches rendered materials (setMaterial materials rendered c) := by
  intro id hid
  rw [setMaterial, if_neg hid]

theorem standardColor_eq {i : Int} {c : EditCharacterColor R}
    (h : standardColor standardColors i = some c) : c ∈ standardColors := by
  rw [standardColor] at h
  split at h
  · exact List.mem_of_getElem? h
  · cases h

theorem standardColor_isSome {i : Int} (hlength : 0 < standardColors.length)
    (h : Selected standardColors i) : ∃ c, standardColor standardColors i = some c := by
  obtain ⟨hlow, hhigh⟩ := h
  have hlt : i.toNat < standardColors.length := by
    have hhigh := hhigh hlength
    omega
  exact ⟨standardColors[i.toNat], by
    rw [standardColor, if_pos hlow, List.getElem?_eq_getElem hlt]⟩

variable (standardColors) in
theorem EditCharacterItem.back_eq (part : EditCharacterItem R) (button : Option Button) :
    ∃ i, part.back button = { part with selectedColor := i } ∧
      (Selected standardColors part.selectedColor → Selected standardColors i) := by
  rw [EditCharacterItem.back]
  split
  · rename_i hback
    refine ⟨_, rfl, fun h => ⟨by omega, fun hlength => ?_⟩⟩
    have hlt := h.2 hlength
    omega
  · exact ⟨part.selectedColor, rfl, id⟩

theorem partGUI_step {button : Option Button} {part part' : EditCharacterItem R}
    {materials materials' : Nat → Color R}
    (h : partGUI standardColors button part materials = some (part', materials')) :
    PartStep standardColors part part' materials materials' := by
  rw [partGUI] at h
  split at h
  · obtain ⟨i, hback, hselected⟩ := part.back_eq standardColors button
    rw [hback] at h
    obtain ⟨shown, hshown, h⟩ := Option.bind_eq_some_iff.mp h
    dsimp only at h
    split at h
    · cases h
      refine ⟨rfl, hselected, fun _ => .inr ⟨shown, standardColor_eq hshown, rfl⟩, ?_,
        touches_setMaterial _ _ _⟩
      exact fun _ id hid => if_pos hid
    · split at h
      · rename_i hnext
        cases h
        refine ⟨rfl, fun hpart => ?_, id, id, .refl _ _⟩
        have hlow := (hselected hpart).1
        exact ⟨by dsimp only; omega, fun _ => hnext.2⟩
      · cases h
        exact ⟨rfl, hselected, id, id, .refl _ _⟩
  · cases h
    exact ⟨rfl, id, id, id, .refl _ _⟩

theorem partGUI_isSome (button : Option Button) {part : EditCharacterItem R}
    (materials : Nat → Color R) (h : Selected standardColors part.selectedColor) :
    (partGUI standardColors button part materials).isSome := by
  rw [partGUI]
  split
  · rename_i hlength
    obtain ⟨i, hback, hselected⟩ := part.back_eq standardColors button
    obtain ⟨c, hc⟩ := standardColor_isSome hlength (hselected h)
    rw [hback]
    dsimp only
    rw [hc, Option.bind_eq_bind, Option.bind_some]
    split
    · rfl
    · split <;> rfl
  · rfl

/-- What a click does to the parts, whichever it is. -/
structure PartsStep (standardColors : List (EditCharacterColor R))
    (parts parts' : List (EditCharacterItem R)) (materials materials' : Nat → Color R) : Prop where
  kept : parts'.map (·.kept) = parts.map (·.kept)
  selected : (∀ part ∈ parts, Selected standardColors part.selectedColor) →
    ∀ part ∈ parts', Selected standardColors part.selectedColor
  colored : (∀ part ∈ parts, Colored standardColors part) →
    ∀ part ∈ parts', Colored standardColors part
  shown : parts.Pairwise Apart → (∀ part ∈ parts, Shown materials part) →
    ∀ part ∈ parts', Shown materials' part
  materials : ∀ id, (∀ part ∈ parts, part.renderedMaterial ≠ some id) → materials' id = materials id

theorem partsGUI_step {click : Click} {i : Nat} {parts parts' : List (EditCharacterItem R)}
    {materials materials' : Nat → Color R}
    (h : partsGUI standardColors click i parts materials = some (parts', materials')) :
    PartsStep standardColors parts parts' materials materials' := by
  induction parts generalizing i parts' materials with
  | nil =>
    cases h
    exact ⟨rfl, id, id, fun _ => id, fun _ _ => rfl⟩
  | cons part parts ih =>
    obtain ⟨⟨part', mid⟩, hpart, h⟩ := Option.bind_eq_some_iff.mp h
    obtain ⟨⟨rest, last⟩, hrest, h⟩ := Option.bind_eq_some_iff.mp h
    cases h
    have hfirst := partGUI_step hpart
    have hothers := ih hrest
    refine ⟨?_, ?_, ?_, ?_, fun id hid => ?_⟩
    · rw [List.map_cons, List.map_cons, hfirst.kept, hothers.kept]
    · intro hall
      rw [List.forall_mem_cons] at hall ⊢
      exact ⟨hfirst.selected hall.1, hothers.selected hall.2⟩
    · intro hall
      rw [List.forall_mem_cons] at hall ⊢
      exact ⟨hfirst.colored hall.1, hothers.colored hall.2⟩
    · intro hapart hall
      rw [List.pairwise_cons] at hapart
      rw [List.forall_mem_cons] at hall ⊢
      refine ⟨fun id hid => ?_, hothers.shown hapart.2 fun other hother id hid => ?_⟩
      · have hrendered : part.renderedMaterial = some id := by
          rw [← EditCharacterItem.rendered_kept hfirst.kept, hid]
        rw [hothers.materials id fun other hother => hapart.1 other hother id hrendered]
        exact hfirst.shown hall.1 id hid
      · rw [hfirst.materials id fun hsame => hapart.1 other hother id hsame hid]
        exact hall.2 other hother id hid
    · rw [List.forall_mem_cons] at hid
      rw [hothers.materials id hid.2, hfirst.materials id hid.1]

theorem partsGUI_isSome (click : Click) (i : Nat) {parts : List (EditCharacterItem R)}
    (materials : Nat → Color R) (h : ∀ part ∈ parts, Selected standardColors part.selectedColor) :
    (partsGUI standardColors click i parts materials).isSome := by
  induction parts generalizing i materials with
  | nil => rfl
  | cons part parts ih =>
    rw [List.forall_mem_cons] at h
    obtain ⟨⟨part', mid⟩, hpart⟩ := Option.isSome_iff_exists.mp
      (partGUI_isSome (click.button i) materials h.1)
    obtain ⟨⟨rest, last⟩, hrest⟩ := Option.isSome_iff_exists.mp (ih (i + 1) mid h.2)
    rw [partsGUI, hpart, Option.bind_eq_bind, Option.bind_some]
    dsimp only
    rw [hrest]
    rfl

/-- The loop over the materials of a mesh, which keeps the last one with the name. -/
theorem matchMaterials_eq (part : EditCharacterItem R) (mats : List SharedMaterial) :
    ∃ renderedMaterial, mats.foldl (fun part mat => if part.replaceMaterialName = mat.name then
        { part with renderedMaterial := some mat.id } else part) part =
          { part with renderedMaterial } ∧
      ∀ id, renderedMaterial = some id → part.renderedMaterial = some id ∨
        ∃ mat ∈ mats, part.replaceMaterialName = mat.name ∧ mat.id = id := by
  induction mats generalizing part with
  | nil => exact ⟨part.renderedMaterial, rfl, fun id hid => .inl hid⟩
  | cons mat mats ih =>
    rw [List.foldl_cons]
    split
    · rename_i hmat
      obtain ⟨rendered, heq, hrendered⟩ := ih { part with renderedMaterial := some mat.id }
      refine ⟨rendered, heq, fun id hid => ?_⟩
      rcases hrendered id hid with hid | ⟨other, hother, h⟩
      · exact .inr ⟨mat, List.mem_cons_self, hmat, Option.some.inj hid⟩
      · exact .inr ⟨other, List.mem_cons_of_mem mat hother, h⟩
    · obtain ⟨rendered, heq, hrendered⟩ := ih part
      refine ⟨rendered, heq, fun id hid => (hrendered id hid).imp_right ?_⟩
      rintro ⟨other, hother, h⟩
      exact ⟨other, List.mem_cons_of_mem mat hother, h⟩

theorem EditCharacterItem.matchChild_eq (part : EditCharacterItem R) (child : PlayerChildObject) :
    ∃ renderedMaterial, part.matchChild child = { part with renderedMaterial } ∧
      ∀ id, renderedMaterial = some id → part.renderedMaterial = some id ∨
        part.replacePartName = child.name ∧ ∃ sharedMaterials, child.sharedMaterials =
          some sharedMaterials ∧ ∃ mat ∈ sharedMaterials, part.replaceMaterialName = mat.name ∧
            mat.id = id := by
  rw [EditCharacterItem.matchChild]
  split
  · rename_i hname
    split
    · rename_i sharedMaterials hshared
      obtain ⟨rendered, heq, hrendered⟩ := matchMaterials_eq part sharedMaterials
      exact ⟨rendered, heq, fun id hid => (hrendered id hid).imp_right fun h =>
        ⟨hname, sharedMaterials, hshared, h⟩⟩
    · exact ⟨part.renderedMaterial, rfl, fun id hid => .inl hid⟩
  · exact ⟨part.renderedMaterial, rfl, fun id hid => .inl hid⟩

/-- The part at `i` as `Start` makes it, with the material that it finds. -/
def made (inspector : Fin 13 → Color R) (rendered : Fin 13 → Option Nat) (i : Fin 13) :
    EditCharacterItem R :=
  { EditCharacterItem.new (partNames.get i).1 (partNames.get i).2.1 (partNames.get i).2.2
    (inspector i) with renderedMaterial := rendered i }

/-- A material of the object of the part at `i` has the name that the part looks for. -/
def Matches (transform : List PlayerChildObject) (i : Fin 13) (id : Nat) : Prop :=
  ∃ child ∈ transform, (partNames.get i).2.1 = child.name ∧ ∃ sharedMaterials,
    child.sharedMaterials = some sharedMaterials ∧
      ∃ mat ∈ sharedMaterials, (partNames.get i).2.2 = mat.name ∧ mat.id = id

theorem start_parts (inspector : Fin 13 → Color R) (transform : List PlayerChildObject)
    (materials : Nat → Color R) : ∃ rendered : Fin 13 → Option Nat,
      (start inspector transform materials).parts =
          (List.finRange 13).map (made inspector rendered) ∧
        ∀ i id, rendered i = some id → Matches transform i id := by
  have hfold (children : List PlayerChildObject) (hchildren : ∀ child ∈ children, child ∈ transform)
      (rendered : Fin 13 → Option Nat) (h : ∀ i id, rendered i = some id → Matches transform i id) :
      ∃ rendered' : Fin 13 → Option Nat,
        children.foldl (fun parts child => parts.map (·.matchChild child))
          ((List.finRange 13).map (made inspector rendered)) =
            (List.finRange 13).map (made inspector rendered') ∧
          ∀ i id, rendered' i = some id → Matches transform i id := by
    induction children generalizing rendered with
    | nil => exact ⟨rendered, rfl, h⟩
    | cons child children ih =>
      rw [List.forall_mem_cons] at hchildren
      choose next hnext hfound using fun i => (made inspector rendered i).matchChild_eq child
      have hround : ((List.finRange 13).map (made inspector rendered)).map (·.matchChild child) =
          (List.finRange 13).map (made inspector next) := by
        rw [List.map_map]
        exact List.map_congr_left fun i _ => hnext i
      rw [List.foldl_cons, hround]
      refine ih hchildren.2 next fun i id hid => ?_
      rcases hfound i id hid with hid | hid
      · exact h i id hid
      · exact ⟨child, hchildren.1, hid⟩
  exact hfold transform (fun _ h => h) (fun _ => none) nofun

/-- The materials that the parts look for have the colors of the inspector's materials, and no two
parts look for the same one. -/
structure Fitting (inspector : Fin 13 → Color R) (transform : List PlayerChildObject)
    (materials : Nat → Color R) : Prop where
  colors : ∀ i id, Matches transform i id → materials id = inspector i
  names : ∀ i j id, Matches transform i id → Matches transform j id → i = j

end Starfall.EditCharacter
