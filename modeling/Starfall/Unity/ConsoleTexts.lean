import Starfall.Unity.ConsoleScript

/-! Which texts the console draws, and which of them as a heading.  `Recurse` leaves out what stands
behind a text among its siblings, and takes what an element makes of `drawHeading` along to the
siblings behind it. -/

namespace Starfall.Unity.ConsoleScript

open ProofKit.Forests ProofKit.Outcomes

variable {u : Textures} {α β : Type}

section Outcomes

variable (w : World u)

@[simp] theorem outcome_getScript : outcome getScript w = (.ok w.script, w) := rfl

@[simp] theorem outcome_setScript (script : Script u) :
    outcome (setScript script) w = (.ok (), { w with script }) := rfl

@[simp] theorem outcome_modifyScript (f : Script u → Script u) :
    outcome (modifyScript f) w = (.ok (), { w with script := f w.script }) := rfl

@[simp] theorem outcome_orThrow_some (e : Exception) (a : α) :
    outcome (orThrow e (some a)) w = (.ok a, w) := rfl

end Outcomes

/-- From every state on, the function adds some calls, and then it returns or throws. -/
def Draws (x : Draw u Unit) (calls : List Call) (returns : Bool) : Prop :=
  ∀ w, ∃ r script, outcome x w = (r, ⟨script, w.calls ++ calls⟩) ∧ (r = .ok () ↔ returns)

theorem Draws.pure : Draws (u := u) (pure ()) [] true := by
  intro w
  exact ⟨.ok (), w.script, by simp, by simp⟩

theorem Draws.bind {x y : Draw u Unit} {calls calls' : List Call} {returns : Bool}
    (hx : Draws x calls true) (hy : Draws y calls' returns) :
    Draws (do x; y) (calls ++ calls') returns := by
  intro w
  obtain ⟨r, script, hr, hreturns⟩ := hx w
  obtain ⟨r', script', hr', hreturns'⟩ := hy ⟨script, w.calls ++ calls⟩
  refine ⟨r', script', ?_, hreturns'⟩
  rw [outcome_bind, hr, hreturns.mpr rfl]
  simp only [hr', List.append_assoc]

theorem Draws.throws {x : Draw u Unit} {calls : List Call} (hx : Draws x calls false)
    (y : Draw u Unit) : Draws (do x; y) calls false := by
  intro w
  obtain ⟨r, script, hr, hreturns⟩ := hx w
  cases r with
  | ok a => exact absurd (hreturns.mp rfl) Bool.false_ne_true
  | error e => exact ⟨.error e, script, by rw [outcome_bind, hr], by simp⟩

theorem mapM_isSome {f : α → Option β} {l : List α} (h : ∀ a ∈ l, (f a).isSome) :
    ∃ bs, l.mapM f = some bs ∧ bs.length = l.length := by
  induction l with
  | nil => exact ⟨[], rfl, rfl⟩
  | cons a l ih =>
    rw [List.forall_mem_cons, Option.isSome_iff_exists] at h
    obtain ⟨⟨b, hb⟩, htail⟩ := h
    obtain ⟨bs, hbs, hlength⟩ := ih htail
    exact ⟨b :: bs, by simp [hb, hbs], by simp [hlength]⟩

theorem tempColors_of_length (parentNode : Tag) {colors compareColors : List u.Color}
    (h : compareColors.length = colors.length) :
    ∃ tempColors', tempColors parentNode colors compareColors = some tempColors' ∧
      tempColors'.length = colors.length := by
  rw [tempColors, ← List.length_zipIdx (l := colors) (i := 0)]
  apply mapM_isSome
  rintro ⟨color, c⟩ hmem
  have hc : c < compareColors.length := by
    have := List.snd_lt_add_of_mem_zipIdx hmem
    omega
  dsimp only
  split
  · rw [List.getElem?_eq_getElem hc]
    rfl
  · rfl

@[simp] theorem newLine_x (s : Script u) : s.newLine.cursor.x = 0 := rfl

/-- Behind the line break that it may need, a character ends within the window. -/
theorem moved_le (s : Script u) (c : FontCharacter u) :
    (if s.cursor.x + c.xoffset + c.width ≥ windowWidth then s.newLine else s).cursor.x +
      c.xoffset + c.width ≤ windowWidth := by
  have hfits := c.place_le
  split
  · rw [newLine_x]
    omega
  · omega

/-- Where a character is drawn at all it stays within the texture. -/
theorem place_within {s s' : Script u} {drawHeading : Bool} {c : FontCharacter u}
    {placeX placeY : Int} (hplace : s.place drawHeading c = (s', placeX, placeY))
    (h : Contains placeX placeY) :
    Within windowWidth windowHeight placeX placeY c.width c.height := by
  have hmoved := moved_le s c
  simp only [Script.place, Prod.mk.injEq] at hplace
  obtain ⟨-, hplaceX, hplaceY⟩ := hplace
  generalize (if s.cursor.x + c.xoffset + c.width ≥ windowWidth then s.newLine else s) = moved
    at hmoved hplaceX hplaceY
  obtain ⟨hx, -, hy, hy'⟩ := h
  refine ⟨hx, ?_, hy, ?_⟩
  · have hwidth := c.width_le
    rw [← hplaceX]
    split <;> omega
  · have hheight := c.height_le
    rw [← hplaceY] at hy' ⊢
    dsimp only [windowHeight, lineHeight] at hy' hheight ⊢
    split_ifs at hy' ⊢ <;> omega

theorem draws_drawCharacter (parentNode : Tag) (drawHeading : Bool) (c : FontCharacter u) :
    Draws (drawCharacter parentNode drawHeading c) [] true := by
  intro w
  rcases hplace : w.script.place drawHeading c with ⟨s, placeX, placeY⟩
  rw [drawCharacter, outcome_bind, outcome_getScript]
  dsimp only
  rw [hplace]
  by_cases hcontains : Contains placeX placeY
  · have hrect := place_within hplace hcontains
    obtain ⟨compareColors, hcompare, hlength⟩ := u.getPixels_within s.backgroundTexture hrect
    rw [← c.length_colors] at hlength
    obtain ⟨temp, htemp, htemp'⟩ := tempColors_of_length parentNode hlength
    rw [c.length_colors] at htemp'
    obtain ⟨texture, htexture⟩ := u.setPixels_within s.texture hrect htemp'
    simp [hcontains, hcompare, htemp, htexture]
  · simp [hcontains]

theorem outcome_fontCharacter (fontCharacters : Fin 127 → Option (FontCharacter u)) {byte : UInt8}
    (h : byte.toNat < 127) (w : World u) :
    outcome (fontCharacter fontCharacters byte) w = (.ok (fontCharacters ⟨byte.toNat, h⟩), w) := by
  rw [fontCharacter, dif_pos h, outcome_pure]

theorem outcome_fontCharacter_throw (fontCharacters : Fin 127 → Option (FontCharacter u))
    {byte : UInt8} (h : ¬byte.toNat < 127) (w : World u) :
    outcome (fontCharacter fontCharacters byte) w = (.error .outOfRange, w) := by
  rw [fontCharacter, dif_neg h, outcome_throw]

theorem draws_drawBytes (parentNode : Tag) (drawHeading : Bool) (bytes : List UInt8) :
    Draws (u := u) (drawBytes parentNode drawHeading bytes) []
      (bytes.all fun byte => byte.toNat < 127) := by
  induction bytes with
  | nil => exact .pure
  | cons byte bytes ih =>
    intro w
    rw [drawBytes, outcome_bind, outcome_getScript]
    dsimp only
    rw [outcome_bind, List.all_cons]
    by_cases hbyte : byte.toNat < 127
    · rw [outcome_fontCharacter _ hbyte, decide_eq_true hbyte, Bool.true_and]
      dsimp only
      cases w.script.fontCharacters ⟨byte.toNat, hbyte⟩ with
      | none => exact Draws.pure.bind ih w
      | some c => exact (draws_drawCharacter parentNode drawHeading c).bind ih w
    · rw [outcome_fontCharacter_throw _ hbyte, decide_eq_false hbyte, Bool.false_and]
      exact ⟨.error .outOfRange, w.script, by rw [List.append_nil], by simp⟩

/-- The font has a place for every character of the text. -/
def Drawable (innerText : Text) : Bool := decide ((127 : UInt16) ∉ innerText)

theorem getBytes_drawable (innerText : Text) :
    (innerText.getBytes.all fun byte => byte.toNat < 127) = Drawable innerText := by
  rw [Bool.eq_iff_iff, List.all_eq_true, Drawable, decide_eq_true_iff]
  simp only [Text.getBytes, List.forall_mem_map, decide_eq_true_eq]
  constructor
  · intro h hmem
    exact absurd (h _ hmem) (by decide)
  · intro h c hmem
    split
    · rename_i hascii
      have hne : c.toNat ≠ 127 := fun heq => h (UInt16.toNat_inj (b := 127).mp heq ▸ hmem)
      rw [UInt16.lt_iff_toNat_lt] at hascii
      have hc : c.toNat < 128 := hascii
      rw [UInt16.toNat_toUInt8]
      omega
    · decide

theorem draws_applyToTexture (parentNode : Tag) (drawHeading : Bool) (innerText : Text) :
    Draws (u := u) (applyToTexture parentNode drawHeading innerText)
      [⟨parentNode, drawHeading, innerText⟩] (Drawable innerText) := by
  intro w
  obtain ⟨r, script, hr, hreturns⟩ :=
    draws_drawBytes (u := u) parentNode drawHeading innerText.getBytes
      ⟨w.script, w.calls ++ [⟨parentNode, drawHeading, innerText⟩]⟩
  rw [getBytes_drawable] at hreturns
  rw [List.append_nil] at hr
  exact ⟨r, script, hr, hreturns⟩

theorem draws_modifyScript (f : Script u → Script u) : Draws (modifyScript f) [] true := by
  intro w
  exact ⟨.ok (), f w.script, by simp, by simp⟩

theorem draws_loadTexture : Draws (u := u) loadTexture [] true := by
  intro w
  have hrect : Within windowWidth windowHeight 0 0 windowWidth windowHeight := by
    simp [Within]
  obtain ⟨pixels, hpixels, hlength⟩ := u.getPixels_within w.script.backgroundTexture hrect
  obtain ⟨texture, htexture⟩ := u.setPixels_within w.script.texture hrect hlength
  simp [loadTexture, hpixels, htexture]

/-- Among the labels, the innermost or latest first, there is a heading before any block. -/
def InHeading (tags : List Tag) : Prop :=
  ∃ inner heading outer, tags = inner ++ heading :: outer ∧ heading.Name = text "heading" ∧
    ∀ tag ∈ inner, tag.Name ≠ text "block"

theorem inHeading_cons (tag : Tag) (tags : List Tag) :
    InHeading (tag :: tags) ↔
      tag.Name = text "heading" ∨ tag.Name ≠ text "block" ∧ InHeading tags := by
  constructor
  · rintro ⟨inner, heading, outer, htags, hname, hinner⟩
    cases inner with
    | nil =>
      cases htags
      exact .inl hname
    | cons first inner =>
      cases htags
      rw [List.forall_mem_cons] at hinner
      exact .inr ⟨hinner.1, inner, heading, outer, rfl, hname, hinner.2⟩
  · rintro (hname | ⟨hblock, inner, heading, outer, rfl, hname, hinner⟩)
    · exact ⟨[], tag, tags, rfl, hname, by simp⟩
    · exact ⟨tag :: inner, heading, outer, rfl, hname, List.forall_mem_cons.mpr ⟨hblock, hinner⟩⟩

theorem not_inHeading_nil : ¬InHeading [] := by
  rintro ⟨inner, heading, outer, htags, -⟩
  simp at htags

instance decidableInHeading : (tags : List Tag) → Decidable (InHeading tags)
  | [] => isFalse not_inHeading_nil
  | tag :: tags =>
    have := decidableInHeading tags
    decidable_of_iff (tag.Name = text "heading" ∨ tag.Name ≠ text "block" ∧ InHeading tags)
      (inHeading_cons tag tags).symm

/-- What an element makes of `drawHeading` is what the tags with its own say. -/
theorem drawHeading_inHeading (tag : Tag) (tags : List Tag) :
    tag.drawHeading (decide (InHeading tags)) = decide (InHeading (tag :: tags)) := by
  have hne : text "heading" ≠ text "block" := by decide
  rw [Tag.drawHeading, Bool.eq_iff_iff, decide_eq_true_iff, inHeading_cons]
  by_cases hheading : tag.Name = text "heading"
  · simp [hheading, hne]
  · by_cases hblock : tag.Name = text "block" <;> simp [hheading, hblock, hne.symm]

/-- The call for a text: with the element that it is in, and as a heading where `tags` says so. -/
def Call.of (tags : Leaf Tag Text → List Tag) (leaf : Leaf Tag Text) : Call :=
  ⟨leaf.above.headD document, decide (InHeading (tags leaf)), leaf.value⟩

/-- The elements that the traversal passed decide whether it draws a text as a heading, and it ends
with the first text that cannot be drawn. -/
theorem draws_recurse (f : XmlNode) (above passed : List Tag) :
    Draws (u := u) (recurse f (above.headD document) (decide (InHeading passed)))
      ((upTo (fun leaf => Drawable leaf.value) (f.reached above passed)).map
        (Call.of Leaf.passed))
      ((f.reached above passed).all fun leaf => Drawable leaf.value) := by
  induction f generalizing above passed with
  | nil => exact .pure
  | node tag firstChild nextSibling ihc ihn =>
    have hbreak : Draws (u := u) tag.newLine [] true := by
      rw [Tag.newLine]
      split
      · exact draws_modifyScript Script.newLine
      · exact .pure
    have hchild := ihc (tag :: above) (tag :: passed)
    have hsibling := ihn above (tag :: passed)
    rw [List.headD_cons, ← drawHeading_inHeading] at hchild
    rw [← drawHeading_inHeading] at hsibling
    rw [recurse, Forest.reached, List.all_append]
    by_cases hall : (firstChild.reached (tag :: above) (tag :: passed)).all
        fun leaf => Drawable leaf.value
    · rw [hall] at hchild ⊢
      rw [upTo_append_of_all hall, List.map_append, Bool.true_and]
      rw [upTo_of_all hall] at hchild
      exact hbreak.bind (hchild.bind hsibling)
    · rw [Bool.eq_false_of_not_eq_true hall] at hchild ⊢
      rw [upTo_append_of_not_all hall, Bool.false_and]
      exact hbreak.bind (hchild.throws _)
  | leaf value nextSibling _ =>
    have hcalls : upTo (fun leaf : Leaf Tag Text => Drawable leaf.value)
        [⟨above, passed, value⟩] = [⟨above, passed, value⟩] :=
      upTo_eq_iff.mpr (by simp)
    rw [recurse, Forest.reached, hcalls, List.all_cons, List.all_nil, Bool.and_true]
    exact draws_applyToTexture _ _ value

/-- The texts of a document in their order. -/
def DocumentElement.texts (root : DocumentElement) : List (Leaf Tag Text) :=
  root.node.leaves [] []

/-- One call for each text, as a heading where it lies in a heading and in no block within it. -/
def DocumentElement.calls (root : DocumentElement) : List Call :=
  root.texts.map (Call.of Leaf.above)

/-- The calls that `LoadConsole` makes. -/
def loadCalls (script : Script u) (loadXml : Text → Option DocumentElement) (xmlData : Text) :
    List Call :=
  (outcome (loadConsole loadXml xmlData) ⟨script, []⟩).2.calls

theorem loadCalls_eq (script : Script u) {loadXml : Text → Option DocumentElement}
    {xmlData : Text} {root : DocumentElement} (h : loadXml xmlData = some root) :
    loadCalls script loadXml xmlData =
      (upTo (fun leaf => Drawable leaf.value) (root.node.reached [] [])).map
        (Call.of Leaf.passed) := by
  have hrecurse := draws_recurse (u := u) root.node [] []
  rw [decide_eq_false not_inHeading_nil, List.headD_nil] at hrecurse
  obtain ⟨r, script', hr, -⟩ := draws_loadTexture.bind
    ((draws_modifyScript fun s => { s with cursor := ⟨0, windowHeight⟩ }).bind hrecurse)
    ⟨script, []⟩
  have hload : loadConsole loadXml xmlData = (do
      loadTexture
      modifyScript fun s => { s with cursor := ⟨0, windowHeight⟩ }
      recurse root.node document false : Draw u Unit) := by
    rw [loadConsole, h]
    rfl
  rw [loadCalls, hload, hr]
  rfl

/-- Whatever is typed into the console, its own page is drawn as it should. -/
theorem loadPage_calls {script : Script u} {loadXml : Text → Option DocumentElement}
    (hstate : script.state)
    (h : loadXml (page script.buffer) = some (pageRoot (.leaf script.buffer .nil))) :
    (outcome (loadPage loadXml) ⟨script, []⟩).2.calls =
      [⟨⟨text "color", [(text "name", text "green")]⟩, true, text "ESC"⟩,
        ⟨⟨text "heading", []⟩, true, text " | edit"⟩,
        ⟨⟨text "block", []⟩, false, script.buffer⟩] := by
  have hload : (outcome (loadPage loadXml) ⟨script, []⟩).2.calls =
      loadCalls script loadXml (page script.buffer) := by
    rw [loadPage, outcome_bind, outcome_getScript]
    dsimp only
    rw [if_pos hstate, loadCalls]
  have hdrawn : upTo (fun leaf => Drawable leaf.value)
      ((pageRoot (.leaf script.buffer .nil)).node.reached [] []) =
        (pageRoot (.leaf script.buffer .nil)).node.reached [] [] := by
    rw [upTo_eq_iff]
    intro leaf hleaf
    rcases List.mem_cons.mp hleaf with rfl | hleaf
    · exact (by decide : Drawable (text "ESC"))
    · rw [List.mem_singleton.mp hleaf]
      exact (by decide : Drawable (text " | edit"))
  rw [hload, loadCalls_eq script h, hdrawn]
  rfl

/-- The traversal draws what it should where it comes to all texts, knows of no heading or block
that decides otherwise than those around a text, and can draw each text that another one follows. -/
theorem loadCalls_eq_calls_iff (script : Script u) {loadXml : Text → Option DocumentElement}
    {xmlData : Text} {root : DocumentElement} (h : loadXml xmlData = some root) :
    loadCalls script loadXml xmlData = root.calls ↔
      root.node.LeavesLast ∧
      (∀ leaf ∈ root.texts, InHeading leaf.passed ↔ InHeading leaf.above) ∧
      ∀ leaf ∈ root.texts.dropLast, Drawable leaf.value := by
  rw [loadCalls_eq script h, DocumentElement.calls, DocumentElement.texts]
  have hflags : ∀ leaf : Leaf Tag Text, Call.of Leaf.passed leaf = Call.of Leaf.above leaf ↔
      (InHeading leaf.passed ↔ InHeading leaf.above) := by
    intro leaf
    simp [Call.of]
  constructor
  · intro hcalls
    have hlength := congrArg List.length hcalls
    rw [List.length_map, List.length_map] at hlength
    have hstart := upTo_prefix (fun leaf => Drawable leaf.value) (root.node.reached [] [])
    have hlast : root.node.LeavesLast := by
      apply Forest.leavesLast_of_length [] []
      rw [← hlength]
      exact hstart.length_le
    rw [hlast.reached_eq] at hcalls hlength hstart
    have hall := hstart.eq_of_length hlength
    rw [hall, List.map_inj_left] at hcalls
    exact ⟨hlast, fun leaf hleaf => (hflags leaf).mp (hcalls leaf hleaf), upTo_eq_iff.mp hall⟩
  · rintro ⟨hlast, hheading, hdrawable⟩
    rw [hlast.reached_eq, upTo_eq_iff.mpr hdrawable, List.map_inj_left]
    intro leaf hleaf
    exact (hflags leaf).mpr (hheading leaf hleaf)

/-- The script with black textures and without a font, while it has the focus. -/
def blank (buffer : Text) : Script rgb24 where
  backgroundTexture _ _ := (0, 0, 0)
  texture _ _ := (0, 0, 0)
  lineOffset := -1
  fontCharacters _ := none
  cursor := ⟨0, 0⟩
  state := true
  buffer := buffer

/-- Reads one text only. -/
def loadOnly (xmlData : Text) (root : DocumentElement) (data : Text) : Option DocumentElement :=
  if data = xmlData then some root else none

theorem loadCalls_page :
    loadOnly (page (text "hi")) (pageRoot (.leaf (text "hi") .nil)) (page (text "hi")) =
        some (pageRoot (.leaf (text "hi") .nil)) ∧
      loadCalls (blank (text "hi"))
        (loadOnly (page (text "hi")) (pageRoot (.leaf (text "hi") .nil))) (page (text "hi")) =
          (pageRoot (.leaf (text "hi") .nil)).calls :=
  ⟨if_pos rfl, (loadCalls_eq_calls_iff (blank (text "hi")) (if_pos rfl)).mpr (by decide)⟩

/-- What `a<i>b</i>` makes of the page when it is typed. -/
def interrupted : DocumentElement :=
  pageRoot (.leaf (text "a") (.node ⟨text "i", []⟩ (.leaf (text "b") .nil) .nil))

/-- The traversal ends at the text, and what is in the element behind it is not drawn. -/
theorem loadCalls_interrupted :
    ¬∀ (u : Textures) (script : Script u) (loadXml : Text → Option DocumentElement)
      (xmlData : Text) (root : DocumentElement), loadXml xmlData = some root →
        loadCalls script loadXml xmlData = root.calls := by
  intro h
  have hload : loadOnly (page (text "a<i>b</i>")) interrupted (page (text "a<i>b</i>")) =
      some interrupted := if_pos rfl
  have hcalls := h rgb24 (blank (text "a<i>b</i>")) _ _ interrupted hload
  rw [loadCalls_eq _ hload] at hcalls
  revert hcalls
  decide

end Starfall.Unity.ConsoleScript
