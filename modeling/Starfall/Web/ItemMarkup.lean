import Starfall.Web.Filters
import Starfall.Web.Items
import Starfall.Web.Markup

/-! What a browser makes of the markup of the item form, as long as the names and the keys have no
characters with a meaning of their own. -/

namespace Starfall.Items

/-- The characters that stand for themselves in the value of an attribute. -/
def plain (c : Char) : Bool := c ∉ ['<', '\'', '&', '\x00', '\r']

/-- Options whose names are plain have them as values, and where the keys of a selection are
identifiers their inputs are found by their ids. -/
structure Browser.Lawful (browser : Browser) : Prop where
  select (names : List Str) (selected : Nat) :
    (∀ name ∈ names, name.all plain) →
      browser.select (optionsHtml browser names) selected = names[selected]?
  val (listID : Str) (selection : ItemType) (values : List Str) (key : Str) :
    listID.all Filters.identifier →
    (∀ property ∈ selection, property.1.all Filters.identifier ∧ defaultValue property.2 = []) →
    key.all Filters.identifier →
      browser.val (render browser listID selection).1 values (inputID listID key) =
        some (((selection.map Prod.fst).zip values).lookup key)

/-- What stands in quotes behind each occurrence of a text. -/
def quoted (marker : Str) : Str → List Str
  | [] => []
  | c :: rest =>
    if marker.isPrefixOf (c :: rest) then
      ((c :: rest).drop marker.length).takeWhile (· ≠ '\'') :: quoted marker rest
    else quoted marker rest

/-- A browser for names and keys of ASCII letters. -/
def ascii : Browser where
  toLowerCase s := s.map Char.toLower
  toUpperCase c := [c.toUpper]
  select html selected := (quoted "<option value='".toList html)[selected]?
  val html values id := some (((quoted "<input id='".toList html).zip values).lookup id)

section Quoted

variable {d : Char} {marker : Str}

/-- Each tag begins with another letter than `d`. -/
def skips (d : Char) : Str → Bool
  | [] => true
  | c :: s => (c ≠ '<' || s.head?.any (· ≠ d)) && skips d s

theorem skips_of_not_mem {s : Str} (h : '<' ∉ s) : skips d s := by
  induction s with
  | nil => rfl
  | cons c s ih =>
    rw [List.mem_cons, not_or] at h
    rw [skips, ih h.2, Bool.and_true, decide_eq_true (Ne.symm h.1), Bool.true_or]

/-- A marker that begins with `<` and `d` is not in a text without such a tag. -/
theorem quoted_skip {s : Str} (h : skips d s) (rest : Str) :
    quoted ('<' :: d :: marker) (s ++ rest) = quoted ('<' :: d :: marker) rest := by
  induction s with
  | nil => rfl
  | cons c s ih =>
    rw [skips, Bool.and_eq_true, Bool.or_eq_true] at h
    obtain ⟨hfirst, hs⟩ := h
    rw [List.cons_append, quoted, if_neg, ih hs]
    rw [List.isPrefixOf_iff_prefix, List.cons_prefix_cons]
    rintro ⟨rfl, hsecond⟩
    cases s with
    | nil => simp at hfirst
    | cons e s =>
      rw [List.cons_append, List.cons_prefix_cons] at hsecond
      simp [hsecond.1] at hfirst

/-- What stands behind the marker is taken up to the next quote. -/
theorem quoted_marker {s : Str} (hmarker : '<' ∉ d :: marker) (hs : '\'' ∉ s) (rest : Str) :
    quoted ('<' :: d :: marker) ('<' :: d :: marker ++ (s ++ '\'' :: rest)) =
      s :: quoted ('<' :: d :: marker) (s ++ '\'' :: rest) := by
  have htake : (s ++ '\'' :: rest).takeWhile (· ≠ '\'') = s := by
    rw [List.takeWhile_append_of_pos, List.takeWhile_cons_of_neg (by simp), List.append_nil]
    intro c hc
    exact decide_eq_true fun heq => hs (heq ▸ hc)
  have hfound : List.isPrefixOf ('<' :: d :: marker)
      ('<' :: (d :: marker ++ (s ++ '\'' :: rest))) := by
    rw [List.isPrefixOf_iff_prefix]
    exact List.prefix_append ('<' :: d :: marker) _
  rw [List.cons_append, quoted, if_pos hfound, ← List.cons_append, List.drop_left, htake,
    quoted_skip (skips_of_not_mem hmarker)]

end Quoted

theorem skips_append {d : Char} {s t : Str} (hs : skips d s) (ht : skips d t) :
    skips d (s ++ t) := by
  induction s with
  | nil => exact ht
  | cons c s ih =>
    rw [skips, Bool.and_eq_true, Bool.or_eq_true] at hs
    rw [List.cons_append, skips, ih hs.2, Bool.and_true, Bool.or_eq_true]
    refine hs.1.imp_right fun hsecond => ?_
    cases s with
    | nil => cases hsecond
    | cons e s => exact hsecond

theorem not_mem_capitalize {s : Str} (h : '<' ∉ s) : '<' ∉ capitalize ascii s := by
  cases s with
  | nil => exact h
  | cons c s =>
    rw [List.mem_cons, not_or] at h
    rw [capitalize, List.mem_append, not_or]
    refine ⟨fun hupper => ?_, h.2⟩
    have hc := Components.toUpper_eq (List.mem_singleton.mp hupper).symm (by decide)
    exact h.1 hc.symm

theorem not_mem_of_all {p : Char → Bool} {s : Str} (h : s.all p) {c : Char} (hc : p c = false) :
    c ∉ s := by
  intro hmem
  rw [List.all_eq_true.mp h c hmem] at hc
  cases hc

theorem quoted_optionsHtml {names : List Str} (h : ∀ name ∈ names, name.all plain) :
    quoted "<option value='".toList (optionsHtml ascii names) = names := by
  have hmarker : "<option value='".toList = '<' :: 'o' :: "ption value='".toList := by decide
  rw [hmarker]
  induction names with
  | nil => rfl
  | cons name names ih =>
    rw [List.forall_mem_cons] at h
    have hlt := not_mem_of_all h.1 (c := '<') (by decide)
    have hquote := not_mem_of_all h.1 (c := '\'') (by decide)
    have hhtml : optionsHtml ascii (name :: names) = '<' :: 'o' :: "ption value='".toList ++
        (name ++ '\'' :: ('>' :: capitalize ascii name ++ "</option>".toList ++
          optionsHtml ascii names)) := by
      simp only [optionsHtml, List.flatMap_cons, hmarker, List.append_assoc, List.cons_append]
      rfl
    have hskips : skips 'o' (name ++ '\'' :: ('>' :: capitalize ascii name ++
        "</option>".toList)) := by
      refine skips_append (skips_of_not_mem hlt) (skips_append (s := ['\'', '>']) (by decide) ?_)
      exact skips_append (skips_of_not_mem (not_mem_capitalize hlt)) (by decide)
    rw [hhtml, quoted_marker (by decide) hquote]
    have hrest := @quoted_skip 'o' "ption value='".toList _ hskips (optionsHtml ascii names)
    simp only [List.append_assoc, List.cons_append] at hrest ⊢
    rw [hrest, ih h.2]

theorem append_cut {before label cell cellTag tag id value close behind : Str} {c : Char}
    (hcell : cellTag = cell ++ tag) (hvalue : value ++ close = c :: behind) (rest : Str) :
    before ++ label ++ cellTag ++ id ++ value ++ [] ++ close ++ rest =
      (before ++ (label ++ cell)) ++ (tag ++ (id ++ c :: (behind ++ rest))) := by
  have hrest : value ++ (close ++ rest) = c :: (behind ++ rest) := by
    rw [← List.append_assoc, hvalue, List.cons_append]
  simp only [hcell, List.append_assoc, List.nil_append, hrest]

/-- A row, cut before the tag of its input and behind the id. -/
theorem rowHtml_eq (listID key : Str) {field : Field} (h : defaultValue field = []) (rest : Str) :
    rowHtml ascii listID key field ++ rest =
      ("<li><table width='100%'><tr><td width='50%'>".toList ++ (capitalize ascii key ++
        "</td><td width='50%'>".toList)) ++
      ('<' :: 'i' :: "nput id='".toList ++ (inputID listID key ++ '\'' ::
        (" type='text' value='' /></td></tr></table></li>".toList ++ rest))) := by
  have hcell : "</td><td width='50%'><input id='".toList =
      "</td><td width='50%'>".toList ++ '<' :: 'i' :: "nput id='".toList := by decide +kernel
  have hend : "' type='text' value='".toList ++ "' /></td></tr></table></li>".toList =
      '\'' :: " type='text' value='' /></td></tr></table></li>".toList := by decide +kernel
  unfold rowHtml
  rw [h]
  exact append_cut hcell hend rest

theorem render_cons (listID : Str) (property : Str × Field) (selection : ItemType) :
    (render ascii listID (property :: selection)).1 =
      rowHtml ascii listID property.1 property.2 ++ (render ascii listID selection).1 := rfl

theorem quoted_render {listID : Str} (hlist : listID.all Filters.identifier) {selection : ItemType}
    (h : ∀ property ∈ selection, property.1.all Filters.identifier ∧
      defaultValue property.2 = []) :
    quoted "<input id='".toList (render ascii listID selection).1 =
      selection.map fun property => inputID listID property.1 := by
  have hmarker : "<input id='".toList = '<' :: 'i' :: "nput id='".toList := by decide
  rw [hmarker]
  induction selection with
  | nil => rfl
  | cons property selection ih =>
    obtain ⟨⟨hkey, hdefault⟩, hrest⟩ := List.forall_mem_cons.mp h
    have hlt := not_mem_of_all hkey (c := '<') (by decide)
    have hid : (inputID listID property.1).all Filters.identifier := by
      rw [inputID, List.all_append, List.all_append, hlist, hkey]
      decide
    have hidlt := not_mem_of_all hid (c := '<') (by decide)
    have hquote := not_mem_of_all hid (c := '\'') (by decide)
    have hlabel : skips 'i' ("<li><table width='100%'><tr><td width='50%'>".toList ++
        (capitalize ascii property.1 ++ "</td><td width='50%'>".toList)) :=
      skips_append (by decide)
        (skips_append (skips_of_not_mem (not_mem_capitalize hlt)) (by decide))
    have hskips : skips 'i' (inputID listID property.1 ++ '\'' ::
        " type='text' value='' /></td></tr></table></li>".toList) :=
      skips_append (skips_of_not_mem hidlt) (by decide)
    have hnext := @quoted_skip 'i' "nput id='".toList _ hskips (render ascii listID selection).1
    rw [List.append_assoc, List.cons_append] at hnext
    rw [render_cons, rowHtml_eq listID property.1 hdefault, quoted_skip hlabel,
      quoted_marker (by decide) hquote, hnext, ih hrest]
    rfl

theorem inputID_injective (listID : Str) : Function.Injective (inputID listID) := by
  intro key key' h
  exact List.append_cancel_left h

theorem lookup_zip_injective {f : Str → Str} (hf : Function.Injective f) (keys values : List Str)
    (key : Str) : ((keys.map f).zip values).lookup (f key) = (keys.zip values).lookup key := by
  induction keys generalizing values with
  | nil => rfl
  | cons first keys ih =>
    cases values with
    | nil => rfl
    | cons value values =>
      rw [List.map_cons, List.zip_cons_cons, List.zip_cons_cons, Components.lookup_ite,
        Components.lookup_ite, ih]
      simp only [hf.eq_iff]

theorem ascii_lawful : ascii.Lawful where
  select names selected h := by
    show (quoted _ _)[selected]? = _
    rw [quoted_optionsHtml h]
  val listID selection values key hlist h _ := by
    show some (((quoted _ _).zip values).lookup _) = _
    have hlookup := lookup_zip_injective (inputID_injective listID) (selection.map Prod.fst) values
      key
    rw [List.map_map] at hlookup
    rw [quoted_render hlist h]
    exact congrArg some hlookup

end Starfall.Items
