import Mathlib.Data.List.Nodup
import Starfall.Unity.CharacterTexts

/-! Whole runs of the scene in which a character is edited.  No click throws, the mesh shows the
colors that are saved, and leaving the scene takes them off it again. -/

namespace Starfall.EditCharacter

open ProofKit ProofKit.Runs Vars

variable {R : Type} (format : R → Str) {standardColors : List (EditCharacterColor R)}

variable {inspector : Fin 13 → Color R} {transform : List PlayerChildObject}
  {materials : Nat → Color R}

/-- A color of the inspector or one of those that there are. -/
def Palette (inspector : Fin 13 → Color R) (standardColors : List (EditCharacterColor R))
    (c : Color R) : Prop :=
  (∃ i, c = inspector i) ∨ ∃ standard ∈ standardColors, c = standard.color

variable (inspector transform materials standardColors)

/-- What holds of the script whatever was clicked. -/
structure Edited (s : Script R) : Prop where
  kept : s.parts.map (·.kept) = (start inspector transform materials).parts.map (·.kept)
  selected : ∀ part ∈ s.parts, Selected standardColors part.selectedColor
  colored : ∀ part ∈ s.parts, Colored standardColors part
  materials : ∀ id, (∀ part ∈ (start inspector transform materials).parts,
    part.renderedMaterial ≠ some id) → s.materials id = materials id
  saved : ∀ text ∈ s.consoleQueue, ∃ look : String → Color R,
    (∀ name, Palette inspector standardColors (look name)) ∧ text = savedText format look

variable {inspector transform materials}

theorem names_start : (start inspector transform materials).parts.map (·.name) =
    partNames.map (·.1) := by
  obtain ⟨rendered, hparts, -⟩ := start_parts inspector transform materials
  rw [hparts, List.map_map]
  rfl

theorem edited_start :
    Edited format standardColors inspector transform materials
      (start inspector transform materials) := by
  obtain ⟨rendered, hparts, -⟩ := start_parts inspector transform materials
  refine ⟨rfl, fun part hpart => ?_, fun part hpart => ?_, fun _ _ => rfl, nofun⟩
  · rw [hparts] at hpart
    obtain ⟨i, -, rfl⟩ := List.mem_map.mp hpart
    exact ⟨Int.le_refl 0, fun hlength => Int.natCast_pos.mpr hlength⟩
  · rw [hparts] at hpart
    obtain ⟨i, -, rfl⟩ := List.mem_map.mp hpart
    exact .inl rfl

/-- The color of the part with a name. -/
def colorOf (inspector : Fin 13 → Color R) (parts : List (EditCharacterItem R)) (name : String) :
    Color R :=
  ((findPart parts name).map (·.material)).getD (inspector 0)

theorem colorOf_eq {parts : List (EditCharacterItem R)}
    (hnames : parts.map (·.name) = partNames.map (·.1)) {part : EditCharacterItem R}
    (hpart : part ∈ parts) : colorOf inspector parts part.name = part.material := by
  have hnodup : (parts.map (·.name)).Nodup := by
    rw [hnames]
    decide
  obtain ⟨found, hfound, hfind, hname⟩ := findPart_eq (List.mem_map_of_mem hpart)
  have hsame := List.inj_on_of_nodup_map hnodup hfound hpart hname
  rw [colorOf, hfind, hsame]
  rfl

variable {standardColors}

theorem colorOf_palette {parts : List (EditCharacterItem R)}
    (h : ∀ part ∈ parts, Palette inspector standardColors part.material) (name : String) :
    Palette inspector standardColors (colorOf inspector parts name) := by
  rw [colorOf]
  cases hfind : findPart parts name with
  | none => exact .inl ⟨0, rfl⟩
  | some part => exact h part (List.mem_of_find?_eq_some hfind)

namespace Edited

variable {format} {s s' : Script R}

theorem names (h : Edited format standardColors inspector transform materials s) :
    s.parts.map (·.name) = partNames.map (·.1) := (names_kept h.kept).trans names_start

theorem palette (h : Edited format standardColors inspector transform materials s) :
    ∀ part ∈ s.parts, Palette inspector standardColors part.material := by
  intro part hpart
  rcases h.colored part hpart with hown | ⟨c, hc, hcolor⟩
  · obtain ⟨rendered, hparts, -⟩ := start_parts inspector transform materials
    have hmem : part.kept ∈ s.parts.map (·.kept) := List.mem_map_of_mem hpart
    rw [h.kept, hparts, List.map_map] at hmem
    obtain ⟨i, -, hi⟩ := List.mem_map.mp hmem
    have horiginal : inspector i = part.originalMaterial := EditCharacterItem.original_kept hi
    exact .inl ⟨i, by rw [hown, horiginal]⟩
  · exact .inr ⟨c, hc, hcolor⟩

/-- The button `OK` finds all parts. -/
theorem build_eq (h : Edited format standardColors inspector transform materials s) :
    build format s.parts = some (savedText format (colorOf inspector s.parts)) :=
  EditCharacter.build_eq format h.names fun _ hpart => colorOf_eq h.names hpart

end Edited

variable {format} {click : Click} {s s' : Script R}

theorem saveDialog_cases (h : saveDialog format click s = some s') :
    s'.parts = s.parts ∧ s'.materials = s.materials ∧
      (s'.consoleQueue = s.consoleQueue ∨
        ∃ json, build format s.parts = some json ∧ s'.consoleQueue = s.consoleQueue ++ [json]) := by
  cases click with
  | part i button =>
    cases h
    exact ⟨rfl, rfl, .inl rfl⟩
  | save =>
    cases h
    exact ⟨rfl, rfl, .inl rfl⟩
  | type saveFileDestination =>
    cases h
    exact ⟨rfl, rfl, .inl rfl⟩
  | ok file =>
    rw [saveDialog] at h
    split at h
    · obtain ⟨json, hjson, h⟩ := Option.bind_eq_some_iff.mp h
      cases h
      exact ⟨rfl, rfl, .inr ⟨json, hjson, rfl⟩⟩
    · cases h
      exact ⟨rfl, rfl, .inl rfl⟩
  | cancel =>
    cases h
    exact ⟨rfl, rfl, .inl rfl⟩

/-- A click changes the parts, and may push their text. -/
theorem onGUI_cases (h : onGUI format standardColors click s = some s') :
    PartsStep standardColors s.parts s'.parts s.materials s'.materials ∧
      (s'.consoleQueue = s.consoleQueue ∨ ∃ json, build format s'.parts = some json ∧
        s'.consoleQueue = s.consoleQueue ++ [json]) := by
  obtain ⟨⟨parts, materials⟩, hparts, h⟩ := Option.bind_eq_some_iff.mp h
  have hstep := partsGUI_step hparts
  dsimp only at h
  split at h
  · obtain ⟨hsame, hmaterials, hqueue⟩ := saveDialog_cases h
    rw [hsame, hmaterials]
    exact ⟨hstep, hqueue⟩
  · cases h
    exact ⟨hstep, .inl rfl⟩

theorem Edited.step (h : Edited format standardColors inspector transform materials s)
    (hstep : onGUI format standardColors click s = some s') :
    Edited format standardColors inspector transform materials s' := by
  obtain ⟨hparts, hqueue⟩ := onGUI_cases hstep
  have hkept := hparts.kept.trans h.kept
  have hedited : Edited format standardColors inspector transform materials
      { s' with consoleQueue := s.consoleQueue } := by
    refine ⟨hkept, hparts.selected h.selected, hparts.colored h.colored, fun id hid => ?_, h.saved⟩
    refine (hparts.materials id fun part hpart => ?_).trans (h.materials id hid)
    have hmem : part.kept ∈ s.parts.map (·.kept) := List.mem_map_of_mem hpart
    rw [h.kept] at hmem
    obtain ⟨first, hfirst, hsame⟩ := List.mem_map.mp hmem
    rw [← EditCharacterItem.rendered_kept hsame]
    exact hid first hfirst
  refine ⟨hkept, hedited.selected, hedited.colored, hedited.materials, fun text htext => ?_⟩
  rcases hqueue with hqueue | ⟨json, hjson, hqueue⟩
  · rw [hqueue] at htext
    exact h.saved text htext
  · rw [hqueue, List.mem_append, List.mem_singleton] at htext
    rcases htext with htext | rfl
    · exact h.saved text htext
    · rw [hedited.build_eq] at hjson
      exact ⟨_, colorOf_palette hedited.palette, (Option.some.inj hjson).symm⟩

theorem edited_run {clicks : List Click}
    (run : (scene format standardColors inspector transform materials).Run clicks s) :
    Edited format standardColors inspector transform materials s := by
  refine run.invariant
    (I := fun _ s => Edited format standardColors inspector transform materials s) ?_ ?_
  · rintro s rfl
    exact edited_start format standardColors
  · intro clicks s click s' _ ih hstep
    exact ih.step hstep

/-- Every click has a next state: no color is out of range, and `OK` finds all parts. -/
theorem Edited.next_isSome (h : Edited format standardColors inspector transform materials s)
    (click : Click) : (onGUI format standardColors click s).isSome := by
  obtain ⟨⟨parts, materials'⟩, hparts⟩ := Option.isSome_iff_exists.mp
    (partsGUI_isSome click 0 s.materials h.selected)
  have hnames : parts.map (·.name) = partNames.map (·.1) :=
    (names_kept (partsGUI_step hparts).kept).trans h.names
  have hcolors : ∀ part ∈ parts, colorOf inspector parts part.name = part.material :=
    fun _ hpart => colorOf_eq hnames hpart
  have hbuild := EditCharacter.build_eq format hnames hcolors
  rw [onGUI, hparts, Option.bind_eq_bind, Option.bind_some]
  dsimp only
  split
  · cases click with
    | ok file =>
      rw [saveDialog]
      split
      · rw [hbuild]
        rfl
      · rfl
    | _ => rfl
  · rfl

theorem pairwise_apart {parts parts' : List (EditCharacterItem R)}
    (h : parts'.map (·.kept) = parts.map (·.kept)) (hapart : parts.Pairwise Apart) :
    parts'.Pairwise Apart := by
  have hkept {parts : List (EditCharacterItem R)} : parts.Pairwise Apart ↔
      (parts.map (·.kept)).Pairwise fun kept kept' =>
        ∀ id, kept.2.2.2.2 = some id → kept'.2.2.2.2 ≠ some id := by
    rw [List.pairwise_map]
    rfl
  rwa [hkept, h, ← hkept]

theorem apart_start (fits : Fitting inspector transform materials) :
    (start inspector transform materials).parts.Pairwise Apart := by
  obtain ⟨rendered, hparts, hmatches⟩ := start_parts inspector transform materials
  rw [hparts, List.pairwise_map]
  refine (List.nodup_finRange 13).imp fun {i j} hne id hi hj => hne ?_
  exact fits.names i j id (hmatches i id hi) (hmatches j id hj)

theorem shown_start (fits : Fitting inspector transform materials) :
    ∀ part ∈ (start inspector transform materials).parts, Shown materials part := by
  obtain ⟨rendered, hparts, hmatches⟩ := start_parts inspector transform materials
  intro part hpart id hid
  rw [hparts] at hpart
  obtain ⟨i, -, rfl⟩ := List.mem_map.mp hpart
  exact fits.colors i id (hmatches i id hid)

theorem shown_run (fits : Fitting inspector transform materials) {clicks : List Click}
    (run : (scene format standardColors inspector transform materials).Run clicks s) :
    ∀ part ∈ s.parts, Shown s.materials part := by
  refine run.invariant (I := fun _ s => ∀ part ∈ s.parts, Shown s.materials part) ?_ ?_
  · rintro s rfl
    exact shown_start fits
  · intro clicks s click s' run ih hstep
    have hapart := pairwise_apart (edited_run run).kept (apart_start fits)
    exact (onGUI_cases hstep).1.shown hapart ih

theorem reset_congr {parts parts' : List (EditCharacterItem R)}
    {materials materials' : Nat → Color R}
    (hkept : parts'.map (·.kept) = parts.map (·.kept))
    (h : ∀ id, (∀ part ∈ parts, part.renderedMaterial ≠ some id) → materials' id = materials id) :
    parts'.foldl (fun materials part => part.resetMaterial materials) materials' =
      parts.foldl (fun materials part => part.resetMaterial materials) materials := by
  induction parts generalizing parts' materials materials' with
  | nil =>
    obtain rfl := List.map_eq_nil_iff.mp hkept
    exact funext fun id => h id nofun
  | cons part parts ih =>
    obtain ⟨part', rest, rfl, hpart, hrest⟩ := List.map_eq_cons_iff.mp hkept
    have hrendered := EditCharacterItem.rendered_kept hpart
    have horiginal := EditCharacterItem.original_kept hpart
    rw [List.foldl_cons, List.foldl_cons]
    refine ih hrest fun id hid => ?_
    rw [EditCharacterItem.resetMaterial, EditCharacterItem.resetMaterial, hrendered, horiginal,
      setMaterial, setMaterial]
    split
    · rfl
    · rename_i hne
      exact h id (List.forall_mem_cons.mpr ⟨hne, hid⟩)

theorem reset_shown {parts : List (EditCharacterItem R)} {materials : Nat → Color R}
    (h : ∀ part ∈ parts, ∀ id, part.renderedMaterial = some id →
      materials id = part.originalMaterial) :
    parts.foldl (fun materials part => part.resetMaterial materials) materials = materials := by
  induction parts with
  | nil => rfl
  | cons part parts ih =>
    rw [List.forall_mem_cons] at h
    have hpart : part.resetMaterial materials = materials := by
      funext id
      rw [EditCharacterItem.resetMaterial, setMaterial]
      split
      · rename_i hid
        exact (h.1 id hid).symm
      · rfl
    rw [List.foldl_cons, hpart, ih h.2]

theorem onDestroy_start (fits : Fitting inspector transform materials) :
    onDestroy (start inspector transform materials) = materials := by
  refine reset_shown fun part hpart id hid => ?_
  obtain ⟨rendered, hparts, hmatches⟩ := start_parts inspector transform materials
  rw [hparts] at hpart
  obtain ⟨i, -, rfl⟩ := List.mem_map.mp hpart
  exact fits.colors i id (hmatches i id hid)

/-- However the parts were edited, the script takes every click, and leaving the scene leaves the
materials as if it had been left at once.  Where these have the colors of the inspector's, it leaves
them as they were. -/
theorem edit_restored {clicks : List Click}
    (run : (scene format standardColors inspector transform materials).Run clicks s) :
    (∀ click, ∃ s', onGUI format standardColors click s = some s') ∧
      onDestroy s = onDestroy (start inspector transform materials) ∧
      (Fitting inspector transform materials → onDestroy s = materials) := by
  have hedited := edited_run run
  have hleft : onDestroy s = onDestroy (start inspector transform materials) :=
    reset_congr hedited.kept hedited.materials
  exact ⟨fun click => Option.isSome_iff_exists.mp (hedited.next_isSome click), hleft,
    fun fits => hleft.trans (onDestroy_start fits)⟩

/-! A helmet with two materials that were white.  The one of the part `Helmet` becomes red. -/

def white : Color Bool := ⟨true, true, true, true⟩

def red : EditCharacterColor Bool := ⟨"Red", true, false, false, true⟩

def helmet : List PlayerChildObject :=
  [⟨"Helmet", some [⟨"MaterialHelmet", 0⟩, ⟨"MaterialVisor", 1⟩]⟩]

def bit (b : Bool) : Str := if b then [49] else [48]

def helmetClicks : List Click := [.part 0 .next, .part 0 .color, .save, .type [97]]

def helmetScene : System (Script Bool) Click :=
  scene bit [⟨"White", white⟩, red] (fun _ => white) helmet fun _ => white

theorem helmet_fits : Fitting (fun _ => white) helmet fun _ => white := by
  have hid {i : Fin 13} {id : Nat} (h : Matches helmet i id) : i.val = id := by
    obtain ⟨child, hchild, -, mats, hmats, mat, hmat, hname, rfl⟩ := h
    obtain rfl := List.mem_singleton.mp hchild
    cases hmats
    simp only [List.mem_cons, List.not_mem_nil, or_false] at hmat
    revert i
    rcases hmat with rfl | rfl
    · decide
    · decide
  exact ⟨fun _ _ _ => rfl, fun i j id hi hj => Fin.ext ((hid hi).trans (hid hj).symm)⟩

theorem helmet_run : ∃ s, helmetScene.Run helmetClicks s ∧ s.materials 0 = red.color ∧
    s.showSaveDialog = true ∧ s.saveFileDestination = [97] := by
  have hexec : (System.exec (fun s click => onGUI bit [⟨"White", white⟩, red] click s)
      (start (fun _ => white) helmet fun _ => white) helmetClicks).map (fun s =>
        (s.materials 0, s.showSaveDialog, s.saveFileDestination)) =
          some (red.color, true, [97]) := by
    rfl
  obtain ⟨s, hs, heq⟩ := Option.map_eq_some_iff.mp hexec
  have hrun : helmetScene.Run ([] ++ helmetClicks) s :=
    System.Run.of_exec (fun _ _ _ h => h) (.nil rfl) hs
  obtain ⟨hred, hrest⟩ := Prod.mk.inj heq
  obtain ⟨hdialog, hdestination⟩ := Prod.mk.inj hrest
  exact ⟨s, hrun, hred, hdialog, hdestination⟩

theorem helmet_restored : ∃ s, helmetScene.Run helmetClicks s ∧ s.materials 0 = red.color ∧
    onDestroy s = fun _ => white := by
  obtain ⟨s, run, hred, -⟩ := helmet_run
  exact ⟨s, run, hred, (edit_restored run).2.2 helmet_fits⟩

theorem partGUI_none {part : EditCharacterItem R} (materials : Nat → Color R)
    (h : Selected standardColors part.selectedColor) :
    partGUI standardColors none part materials = some (part, materials) := by
  rw [partGUI]
  split
  · rename_i hlength
    obtain ⟨c, hc⟩ := standardColor_isSome hlength h
    have hbutton (button : Button) (p : Prop) : ¬(none = some button ∧ p) :=
      fun h => Option.some_ne_none button h.1.symm
    have hback : part.back none = part := if_neg (hbutton _ _)
    rw [hback]
    dsimp only
    rw [hc, Option.bind_eq_bind, Option.bind_some, if_neg (hbutton _ _), if_neg (hbutton _ _)]
    rfl
  · rfl

theorem partsGUI_other {click : Click} (hclick : ∀ i, click.button i = none) (i : Nat)
    {parts : List (EditCharacterItem R)} (materials : Nat → Color R)
    (h : ∀ part ∈ parts, Selected standardColors part.selectedColor) :
    partsGUI standardColors click i parts materials = some (parts, materials) := by
  induction parts generalizing i with
  | nil => rfl
  | cons part parts ih =>
    rw [List.forall_mem_cons] at h
    rw [partsGUI, hclick, partGUI_none materials h.1, Option.bind_eq_bind, Option.bind_some]
    dsimp only
    rw [ih (i + 1) h.2]
    rfl

theorem Edited.onGUI_ok (h : Edited format standardColors inspector transform materials s)
    (hdialog : s.showSaveDialog = true) (hdestination : s.saveFileDestination ≠ []) :
    onGUI format standardColors (.ok true) s = some { s with consoleQueue :=
      s.consoleQueue ++ [savedText format (colorOf inspector s.parts)] } := by
  have hclick : ∀ i, (Click.ok true).button i = none := fun _ => rfl
  have hparts := partsGUI_other hclick 0 s.materials h.selected
  rw [onGUI, hparts, Option.bind_eq_bind, Option.bind_some]
  dsimp only
  rw [hdialog, Bool.true_or, if_pos rfl, saveDialog, if_pos ⟨hdestination, rfl⟩]
  dsimp only
  rw [h.build_eq, ← hdialog]
  rfl

/-- Where its file can be written, the button `OK` pushes the colors that the mesh shows, as a text
that JSON and the server's parser read back. -/
theorem edit_saved (fits : Fitting inspector transform materials) (hformat : Printable format)
    {clicks : List Click}
    (run : (scene format standardColors inspector transform materials).Run clicks s)
    (hdialog : s.showSaveDialog = true) (hdestination : s.saveFileDestination ≠ []) :
    ∃ look : String → Color R,
      (∀ part ∈ s.parts, part.material = look part.name ∧
        ∀ id, part.renderedMaterial = some id → s.materials id = look part.name) ∧
      (∀ name, Palette inspector standardColors (look name)) ∧
      onGUI format standardColors (.ok true) s = some { s with consoleQueue :=
        s.consoleQueue ++ [savedText format look] } ∧
      Json.parse (savedText format look) = some (savedJson format look) ∧
      parse (savedText format look) = .ok (savedVar format look) := by
  have hedited := edited_run run
  have hdocument := savedText_document hformat (colorOf inspector s.parts)
  rw [objectJson_saved, objectVar_saved] at hdocument
  refine ⟨colorOf inspector s.parts, fun part hpart => ?_, colorOf_palette hedited.palette,
    hedited.onGUI_ok hdialog hdestination, hdocument.fills.parse, hdocument.parse_eq⟩
  have hcolor : colorOf inspector s.parts part.name = part.material :=
    colorOf_eq hedited.names hpart
  exact ⟨hcolor.symm, fun id hid => by rw [hcolor, shown_run fits run part hpart id hid]⟩

theorem printable_bit : Printable bit := by
  rintro (_ | _)
  · exact List.forall_mem_singleton.mpr (by decide)
  · exact List.forall_mem_singleton.mpr (by decide)

theorem helmet_saved : ∃ s look, helmetScene.Run helmetClicks s ∧ s.materials 0 = red.color ∧
    onGUI bit [⟨"White", white⟩, red] (.ok true) s = some { s with consoleQueue :=
      s.consoleQueue ++ [savedText bit look] } ∧
    parse (savedText bit look) = .ok (savedVar bit look) := by
  obtain ⟨s, run, hred, hdialog, hdestination⟩ := helmet_run
  obtain ⟨look, -, -, hok, -, hparse⟩ := edit_saved helmet_fits printable_bit run hdialog (by
    rw [hdestination]
    nofun)
  exact ⟨s, look, run, hred, hok, hparse⟩

end Starfall.EditCharacter
