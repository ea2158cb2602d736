import Mathlib.Data.List.GetD
import Starfall.Web.Render

/-! The markup of the dump under a console message, into which the names of fields go as they are.
The labels stand in the same places whatever the names are. -/

namespace Starfall.Components

open ProofKit.Transducers Starfall.Html

theorem decimal_plain (n : Nat) : '\'' ∉ decimal n := fun h =>
  absurd (Nat.isDigit_of_mem_toDigits (by decide) (by decide) h) (by decide)

theorem beginLabelTemplate_reads :
    positions beginLabelTemplate = [(.id, some .value), (.color, some .value)] ∧
      html.after .data (Piece.fill (fun _ => []) beginLabelTemplate) = .data := by
  rw [beginLabelTemplate]
  repeat rw [String.toList_ofList]
  decide +kernel

theorem endLabelTemplate_reads : positions endLabelTemplate = [(.name, some .text)] ∧
    html.after .data (Piece.fill (fun _ => []) endLabelTemplate) = .data := by
  rw [endLabelTemplate]
  repeat rw [String.toList_ofList]
  decide +kernel

theorem newRowTemplate_reads :
    positions newRowTemplate = [(.name, some .text), (.color, some .value)] ∧
      html.after .data (Piece.fill (fun _ => []) newRowTemplate) = .data := by
  rw [newRowTemplate]
  repeat rw [String.toList_ofList]
  decide +kernel

namespace Cell

/-- An element whose strings are inert in its markup. -/
def Plain : Cell → Prop
  | .hex value => '<' ∉ value
  | .beginLabel id color _ => '\'' ∉ id ∧ '\'' ∉ color
  | .endLabel name => Text name
  | .newRowInsideLabel name color => Text name ∧ '\'' ∉ color
  | _ => True

/-- The element without the name of a field. -/
def blank : Cell → Cell
  | .endLabel _ => .endLabel []
  | .newRowInsideLabel _ color => .newRowInsideLabel [] color
  | cell => cell

theorem label_alike {id color : Str} (hid : '\'' ∉ id) (hcolor : '\'' ∉ color) :
    html.Alike .data (Piece.fill (labelFillings id [] color) beginLabelTemplate)
      (Piece.fill (labelFillings id [] color) beginLabelTemplate) .data := by
  have erased := @alike_template _ beginLabelTemplate (labelFillings id [] color) (by
    rw [beginLabelTemplate_reads.1, List.forall_mem_cons, List.forall_mem_singleton]
    exact ⟨hid, hcolor⟩) beginLabelTemplate_reads.2
  exact erased.trans erased.symm

theorem markup_alike {cell : Cell} (h : cell.Plain) :
    html.Alike .data cell.markup cell.blank.markup .data := by
  cases cell with
  | hex value =>
    refine alike_markup ((html.run_fst _ _).symm.trans ?_)
    exact congrArg Prod.fst (run_plain h)
  | whitespace => exact alike_markup rfl
  | beginLabel id color endIdx =>
    have before : html.Alike .data "</span></td>".toList "</span></td>".toList .data := by
      refine alike_markup ?_
      rewrite [String.toList_ofList]
      decide +kernel
    exact before.append (label_alike h.1 h.2)
  | endLabel name =>
    have erased : ∀ {name : Str}, Text name →
        html.Alike .data (Piece.fill (labelFillings [] name []) endLabelTemplate)
          (Piece.fill (fun _ => []) endLabelTemplate) .data := by
      intro name hname
      refine alike_template ?_ endLabelTemplate_reads.2
      rw [endLabelTemplate_reads.1, List.forall_mem_singleton]
      exact hname
    exact (erased h).trans (erased (text_plain List.not_mem_nil)).symm
  | newRowInsideLabel name color =>
    have erased : ∀ {name : Str}, Text name →
        html.Alike .data (Piece.fill (labelFillings [] name color) newRowTemplate)
          (Piece.fill (fun _ => []) newRowTemplate) .data := by
      intro name hname
      refine alike_template ?_ newRowTemplate_reads.2
      rw [newRowTemplate_reads.1, List.forall_mem_cons, List.forall_mem_singleton]
      exact ⟨hname, h.2⟩
    exact (erased h.1).trans (erased (text_plain List.not_mem_nil)).symm
  | newRowOutsideLabel =>
    refine alike_markup ?_
    unfold Cell.markup
    rewrite [String.toList_ofList, String.toList_ofList]
    decide +kernel
  | beginTable =>
    refine alike_markup ?_
    unfold Cell.markup
    rewrite [String.toList_ofList, String.toList_ofList]
    decide +kernel
  | endTable =>
    refine alike_markup ?_
    unfold Cell.markup
    rewrite [String.toList_ofList]
    decide +kernel

theorem isLabel_blank (cell : Cell) : cell.blank.isLabel = cell.isLabel := by
  cases cell <;> rfl

theorem blank_elide (cell : Cell) : cell.elide.blank = cell.blank := by
  cases cell <;> rfl

theorem Plain.elide {cell : Cell} (h : cell.Plain) : cell.elide.Plain := by
  cases cell with
  | endLabel name => exact text_plain (by decide)
  | _ => exact h

theorem flatMap_alike {cells : List Cell} (h : ∀ cell ∈ cells, cell.Plain) :
    html.Alike .data (cells.flatMap markup) ((cells.map blank).flatMap markup) .data := by
  induction cells with
  | nil => exact alike_markup rfl
  | cons cell cells ih =>
    rw [List.forall_mem_cons] at h
    rw [List.map_cons, List.flatMap_cons, List.flatMap_cons]
    exact (markup_alike h.1).append (ih h.2)

theorem cellsMarkup_alike {cells : List Cell} (h : ∀ cell ∈ cells, cell.Plain) :
    html.Alike .data (cellsMarkup cells) (cellsMarkup (cells.map blank)) .data := by
  have hall := flatMap_alike h
  cases cells with
  | nil => exact hall
  | cons first cells =>
    cases cells with
    | nil => exact hall
    | cons second cells =>
      cases second with
      | beginLabel id color endIdx =>
        rw [List.forall_mem_cons, List.forall_mem_cons] at h
        have before : html.Alike .data
            "<!--BEGIN--><table border='0' cellspacing='0' cellpadding='0'>".toList
            "<!--BEGIN--><table border='0' cellspacing='0' cellpadding='0'>".toList .data := by
          refine alike_markup ?_
          rewrite [String.toList_ofList]
          decide +kernel
        exact (before.append (label_alike h.2.1.1 h.2.1.2)).append (flatMap_alike h.2.2)
      | _ => exact hall

end Cell

/-- Each element stays, but for the names of fields. -/
def SameRows (cells cells' : List (List Cell)) : Prop :=
  cells.map (List.map Cell.blank) = cells'.map (List.map Cell.blank)

def PlainRows (cells : List (List Cell)) : Prop := ∀ row ∈ cells, ∀ cell ∈ row, cell.Plain

theorem modify_map_eq {A B : Type} {g : A → B} {f f' : A → A}
    (hf : ∀ a b, g a = g b → g (f a) = g (f' b)) {xs ys : List A} (h : xs.map g = ys.map g)
    (i : Nat) : (xs.modify i f).map g = (ys.modify i f').map g := by
  induction xs generalizing ys i with
  | nil =>
    rw [List.map_nil] at h
    rw [List.map_eq_nil_iff.mp h.symm, List.modify_nil, List.modify_nil]
  | cons x xs ih =>
    cases ys with
    | nil => cases h
    | cons y ys =>
      rw [List.map_cons, List.map_cons, List.cons.injEq] at h
      cases i with
      | zero =>
        rw [List.modify_zero_cons, List.modify_zero_cons, List.map_cons, List.map_cons, h.2,
          hf x y h.1]
      | succ i =>
        rw [List.modify_succ_cons, List.modify_succ_cons, List.map_cons, List.map_cons, h.1,
          ih h.2 i]

theorem forall_mem_modify {A : Type} {P : A → Prop} {f : A → A} (hf : ∀ a, P a → P (f a))
    {xs : List A} (h : ∀ x ∈ xs, P x) (i : Nat) : ∀ x ∈ xs.modify i f, P x := by
  induction xs generalizing i with
  | nil => cases i <;> exact h
  | cons x xs ih =>
    rw [List.forall_mem_cons] at h
    cases i with
    | zero =>
      rw [List.modify_zero_cons, List.forall_mem_cons]
      exact ⟨hf x h.1, h.2⟩
    | succ i =>
      rw [List.modify_succ_cons, List.forall_mem_cons]
      exact ⟨h.1, ih h.2 i⟩

theorem not_mem_splitOnP {A : Type} {p : A → Bool} {a : A} {xs : List A} (h : a ∉ xs) :
    ∀ {piece : List A}, piece ∈ xs.splitOnP p → a ∉ piece := by
  induction xs with
  | nil =>
    intro piece hpiece
    rw [List.splitOnP_nil, List.mem_singleton] at hpiece
    rw [hpiece]
    exact List.not_mem_nil
  | cons x xs ih =>
    intro piece hpiece
    rw [List.mem_cons, not_or] at h
    rw [List.splitOnP_cons_eq_if_modifyHead] at hpiece
    split at hpiece
    · rcases List.mem_cons.mp hpiece with rfl | hpiece
      · exact List.not_mem_nil
      · exact ih h.2 hpiece
    · cases hsplit : xs.splitOnP p with
      | nil =>
        rw [hsplit] at hpiece
        cases hpiece
      | cons head pieces =>
        rw [hsplit] at hpiece ih
        rcases List.mem_cons.mp hpiece with rfl | hpiece
        · rw [List.mem_cons, not_or]
          exact ⟨h.1, ih h.2 List.mem_cons_self⟩
        · exact ih h.2 (List.mem_cons_of_mem _ hpiece)

namespace SameRows

variable {cells cells' : List (List Cell)}

theorem length_eq (h : SameRows cells cells') : cells.length = cells'.length := by
  have := congrArg List.length h
  rwa [List.length_map, List.length_map] at this

theorem push (h : SameRows cells cells') (i : Nat) {cell cell' : Cell}
    (hcell : cell.blank = cell'.blank) :
    SameRows (cells.modify i (· ++ [cell])) (cells'.modify i (· ++ [cell'])) := by
  refine modify_map_eq (fun a b hab => ?_) h i
  rw [List.map_append, List.map_append, hab, List.map_singleton, List.map_singleton, hcell]

theorem unshift (h : SameRows cells cells') (i : Nat) (cell : Cell) :
    SameRows (cells.modify i (cell :: ·)) (cells'.modify i (cell :: ·)) := by
  refine modify_map_eq (fun a b hab => ?_) h i
  rw [List.map_cons, List.map_cons, hab]

theorem elide (h : SameRows cells cells') (i : Nat) :
    SameRows (cells.modify i (·.map Cell.elide)) (cells'.modify i (·.map Cell.elide)) := by
  have helide : ∀ row : List Cell, (row.map Cell.elide).map Cell.blank = row.map Cell.blank := by
    intro row
    rw [List.map_map]
    exact List.map_congr_left fun cell _ => Cell.blank_elide cell
  refine modify_map_eq (fun a b hab => ?_) h i
  rw [helide, helide, hab]

theorem surround (h : SameRows cells cells') : SameRows (surround cells) (surround cells') := by
  unfold Components.surround
  rw [h.length_eq]
  exact (h.unshift 0 .beginTable).push _ rfl

/-- The search finds the same label in both. -/
theorem find (h : SameRows cells cells') (j : Nat) :
    ((cells.getD j []).find? Cell.isLabel).map Cell.blank =
      ((cells'.getD j []).find? Cell.isLabel).map Cell.blank := by
  have hrow : (cells.getD j []).map Cell.blank = (cells'.getD j []).map Cell.blank := by
    have hmap := fun rows : List (List Cell) =>
      @List.getD_map _ _ rows [] j (List.map Cell.blank)
    rw [← hmap, ← hmap, h]
  have hblank : Cell.isLabel ∘ Cell.blank = Cell.isLabel := funext Cell.isLabel_blank
  have := congrArg (List.find? Cell.isLabel) hrow
  rwa [List.find?_map, List.find?_map, hblank] at this

theorem insertFrom (h : SameRows cells cells') (idx j : Nat) :
    SameRows (insertFrom cells idx j) (insertFrom cells' idx j) := by
  induction j with
  | zero => exact h
  | succ j ih =>
    have hfind := h.find (j + 1)
    rw [Components.insertFrom, Components.insertFrom]
    cases hcell : (cells.getD (j + 1) []).find? Cell.isLabel with
    | none =>
      rw [hcell] at hfind
      rw [Option.map_eq_none_iff.mp hfind.symm]
      exact ih
    | some cell =>
      rw [hcell] at hfind
      obtain ⟨cell', hcell', hblank⟩ := Option.map_eq_some_iff.mp hfind.symm
      rw [hcell']
      cases cell with
      | beginLabel id color endIdx =>
        cases cell' with
        | beginLabel id' color' endIdx' =>
          cases hblank
          exact (h.elide endIdx).push idx rfl
        | _ => cases hblank
      | _ =>
        cases cell' with
        | beginLabel id' color' endIdx' => cases hblank
        | _ => exact h.push idx rfl

theorem formatLines (h : SameRows cells cells') :
    SameRows (formatLines cells) (formatLines cells') := by
  unfold Components.formatLines
  rw [h.length_eq]
  generalize List.range cells'.length = indices
  induction indices generalizing cells cells' with
  | nil => exact h
  | cons i indices ih =>
    rw [List.foldl_cons, List.foldl_cons]
    refine ih ?_
    rw [h.length_eq]
    split
    · exact h.insertFrom i i
    · exact h

theorem label {idString : Str} {maps maps' : List HexMap}
    (hmaps : List.Forall₂ (fun map map' =>
      map.beginIdx = map'.beginIdx ∧ map.endIdx = map'.endIdx) maps maps')
    (subCounter : Nat) (colors : List Str) (h : SameRows cells cells') :
    Option.Rel SameRows (label idString maps subCounter colors cells)
      (label idString maps' subCounter colors cells') := by
  induction hmaps generalizing subCounter colors cells cells' with
  | nil => exact .some h
  | cons first _ ih =>
    rw [Components.label, Components.label, first.1, first.2, h.length_eq]
    split
    · exact ih _ _ ((h.unshift _ _).push _ rfl)
    · exact .none

end SameRows

namespace PlainRows

variable {cells : List (List Cell)}

theorem push (h : PlainRows cells) (i : Nat) {cell : Cell} (hcell : cell.Plain) :
    PlainRows (cells.modify i (· ++ [cell])) := by
  refine forall_mem_modify (fun row hrow => ?_) h i
  rw [List.forall_mem_append, List.forall_mem_singleton]
  exact ⟨hrow, hcell⟩

theorem unshift (h : PlainRows cells) (i : Nat) {cell : Cell} (hcell : cell.Plain) :
    PlainRows (cells.modify i (cell :: ·)) := by
  refine forall_mem_modify (fun row hrow => ?_) h i
  rw [List.forall_mem_cons]
  exact ⟨hcell, hrow⟩

theorem elide (h : PlainRows cells) (i : Nat) :
    PlainRows (cells.modify i (·.map Cell.elide)) := by
  refine forall_mem_modify (fun row hrow => ?_) h i
  rw [List.forall_mem_map]
  exact fun cell hcell => (hrow cell hcell).elide

theorem getD (h : PlainRows cells) (i : Nat) : ∀ cell ∈ cells.getD i [], cell.Plain := by
  rw [List.getD_eq_getElem?_getD]
  cases hrow : cells[i]? with
  | none => exact fun cell hcell => absurd hcell List.not_mem_nil
  | some row => exact h row (List.mem_of_getElem? hrow)

theorem lastName {row : List Cell} (h : ∀ cell ∈ row, cell.Plain) : Text (lastName row) := by
  unfold Components.lastName
  have hnil : Text [] := text_plain List.not_mem_nil
  generalize [] = name at hnil
  induction row generalizing name with
  | nil => exact hnil
  | cons cell row ih =>
    rw [List.forall_mem_cons] at h
    rw [List.foldl_cons]
    refine ih h.2 _ ?_
    cases cell with
    | endLabel name => exact h.1
    | _ => exact hnil

theorem surround (h : PlainRows cells) : PlainRows (surround cells) :=
  (@unshift _ h 0 .beginTable trivial).push _ trivial

theorem insertFrom (h : PlainRows cells) (idx j : Nat) : PlainRows (insertFrom cells idx j) := by
  induction j with
  | zero => exact h
  | succ j ih =>
    rw [Components.insertFrom]
    cases hcell : (cells.getD (j + 1) []).find? Cell.isLabel with
    | none => exact ih
    | some cell =>
      have hplain := h.getD (j + 1) cell (List.mem_of_find?_eq_some hcell)
      cases cell with
      | beginLabel id color endIdx =>
        exact (h.elide endIdx).push idx ⟨lastName (h.getD endIdx), hplain.2⟩
      | _ => exact h.push idx trivial

theorem formatLines (h : PlainRows cells) : PlainRows (formatLines cells) := by
  unfold Components.formatLines
  generalize List.range cells.length = indices
  induction indices generalizing cells with
  | nil => exact h
  | cons i indices ih =>
    rw [List.foldl_cons]
    refine ih ?_
    split
    · exact h.insertFrom i i
    · exact h

theorem label {idString : Str} (hid : '\'' ∉ idString) {maps : List HexMap}
    (hmaps : ∀ map ∈ maps, Text map.name) (subCounter : Nat) {colors : List Str}
    (hcolors : ∀ color ∈ colors, '\'' ∉ color) (h : PlainRows cells) {labelled : List (List Cell)}
    (hlabel : label idString maps subCounter colors cells = some labelled) :
    PlainRows labelled := by
  induction maps generalizing subCounter colors cells with
  | nil =>
    cases hlabel
    exact h
  | cons map maps ih =>
    rw [List.forall_mem_cons] at hmaps
    have hcolor : '\'' ∉ colors.headD [] := by
      cases colors with
      | nil => exact List.not_mem_nil
      | cons color colors => exact hcolors color List.mem_cons_self
    have hsub : '\'' ∉ idString ++ '_' :: decimal subCounter := by
      simp [hid, decimal_plain]
    rw [Components.label] at hlabel
    split at hlabel
    · have hbegin := @unshift _ h map.beginIdx (.beginLabel _ _ map.endIdx) ⟨hsub, hcolor⟩
      have hend := @push _ hbegin map.endIdx (.endLabel map.name) hmaps.1
      refine ih hmaps.2 _ ?_ hend hlabel
      rw [List.forall_mem_append, List.forall_mem_singleton]
      exact ⟨fun color hmem => hcolors color (List.mem_of_mem_tail hmem), hcolor⟩
    · cases hlabel

theorem hexValues {hex : Str} (h : '<' ∉ hex) : PlainRows (hexValues hex) := by
  rw [PlainRows, Components.hexValues, List.forall_mem_map]
  intro value hvalue
  rw [List.forall_mem_cons, List.forall_mem_singleton]
  exact ⟨not_mem_splitOnP h (List.mem_of_mem_filter hvalue), trivial⟩

end PlainRows

theorem foot_alike {idString : Str} (hid : '\'' ∉ idString) {hex : Option Str}
    {maps maps' : List HexMap}
    (h : List.Forall₂ (fun map map' =>
      map.beginIdx = map'.beginIdx ∧ map.endIdx = map'.endIdx) maps maps')
    (hhex : ∀ value, hex = some value → '<' ∉ value)
    (hmaps : ∀ map ∈ maps, Text map.name) (hmaps' : ∀ map ∈ maps', Text map.name) :
    Option.Rel (html.Alike .data · · .data) (renderFoot idString hex maps)
      (renderFoot idString hex maps') := by
  cases hex with
  | none => exact .some (alike_markup rfl)
  | some hex =>
    have hcolors : ∀ color ∈ ["#FF0000".toList, "#00FF00".toList], '\'' ∉ color := by
      decide +kernel
    have before : html.Alike .data "<li data-role='list-divider'>Hexadecimal</li><li>".toList
        "<li data-role='list-divider'>Hexadecimal</li><li>".toList .data := by
      refine alike_markup ?_
      rewrite [String.toList_ofList]
      decide +kernel
    have close : html.Alike .data "</li>".toList "</li>".toList .data := by
      refine alike_markup ?_
      rewrite [String.toList_ofList]
      decide +kernel
    have hvalues := PlainRows.hexValues (hhex hex rfl)
    have hsame := @SameRows.label _ _ idString _ _ h 0 ["#FF0000".toList, "#00FF00".toList]
      (show SameRows (hexValues hex) (hexValues hex) from rfl)
    rw [renderFoot, renderFoot]
    refine rel_bind (rel_and hsame (fun cells => PlainRows.label hid hmaps 0 hcolors hvalues)
      fun cells => PlainRows.label hid hmaps' 0 hcolors hvalues) fun cells cells' hcells => .some ?_
    obtain ⟨hcells, hplain, hplain'⟩ := hcells
    have dump := Cell.cellsMarkup_alike (List.forall_mem_flatten.mpr hplain.surround.formatLines)
    have dump' := Cell.cellsMarkup_alike (List.forall_mem_flatten.mpr hplain'.surround.formatLines)
    rw [List.map_flatten] at dump dump'
    rw [hcells.surround.formatLines] at dump
    exact (before.append (dump.trans dump'.symm)).append close

end Starfall.Components
