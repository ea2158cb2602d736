import Starfall.Common.VarJson

/-! Documents of strings and objects, as programs write them that put their texts together by hand.
Such a text is JSON, and `Var::parse` reads the same from it, with the members of every struct in
the order of their keys. -/

namespace Starfall.Vars

open ProofKit ProofKit.Json

/-- A member with the spaces on either side of its colon, and what its text is as JSON and for the
parser. -/
structure Entry where
  key : Str
  before : Str
  after : Str
  json : Json.Value
  var : Var
  text : Str

def Entry.memberText (e : Entry) : Str :=
  34 :: (e.key ++ 34 :: (e.before ++ 58 :: (e.after ++ e.text)))

structure Entry.Plain (e : Entry) : Prop where
  key : 34 ∉ e.key ∧ IsLiteral e.key
  before : Blank e.before
  after : Blank e.after

def objectJson (entries : List Entry) : Json.Value := .object (entries.map fun e => (e.key, e.json))

def objectVar (entries : List Entry) : Var :=
  .struct (SortedMaps.insertAll [] (entries.map fun e => (e.key, e.var)))

/-- An object with `sep` behind its commas, and with `front` and `close` inside of its brackets. -/
def objectText (front sep close : Str) (entries : List Entry) : Str :=
  123 :: (front ++ (List.intercalate (44 :: sep) (entries.map Entry.memberText) ++
    (close ++ [125])))

inductive Document : Json.Value → Var → Str → Prop
  | string {s : Str} (hquote : 34 ∉ s) (h : IsLiteral s) :
      Document (.string s) (.string s) (quote s)
  | object {entries : List Entry} {front sep close : Str} (hfront : Blank front) (hsep : Blank sep)
      (hclose : Blank close) (hplain : ∀ e ∈ entries, e.Plain)
      (h : ∀ e ∈ entries, Document e.json e.var e.text) :
      Document (objectJson entries) (objectVar entries) (objectText front sep close entries)

/-- The member is plain, and its text is a document. -/
structure Entry.Stands (e : Entry) : Prop where
  plain : e.Plain
  document : Document e.json e.var e.text

theorem document_object {entries : List Entry} {front sep close : Str} (hfront : Blank front)
    (hsep : Blank sep) (hclose : Blank close) (h : ∀ e ∈ entries, e.Stands) :
    Document (objectJson entries) (objectVar entries) (objectText front sep close entries) :=
  .object hfront hsep hclose (fun e he => (h e he).plain) fun e he => (h e he).document

theorem forall_intercalate {P : UInt8 → Prop} {sep : Str} {texts : List Str} (hsep : ∀ c ∈ sep, P c)
    (h : ∀ text ∈ texts, ∀ c ∈ text, P c) : ∀ c ∈ List.intercalate sep texts, P c := by
  induction texts with
  | nil => nofun
  | cons text texts ih =>
    rw [List.forall_mem_cons] at h
    cases texts with
    | nil =>
      rw [List.intercalate_singleton]
      exact h.1
    | cons text' texts =>
      rw [List.intercalate_cons_cons, List.forall_mem_append, List.forall_mem_append]
      exact ⟨⟨h.1, hsep⟩, ih h.2⟩

/-- What holds of the marks, of the spaces and of the parts of the members holds of the text. -/
theorem forall_objectText {P : UInt8 → Prop} {entries : List Entry} {front sep close : Str}
    (hmarks : ∀ c ∈ ([34, 44, 58, 123, 125] : Str), P c)
    (hspaces : ∀ w ∈ [front, sep, close], ∀ c ∈ w, P c)
    (h : ∀ e ∈ entries, ∀ w ∈ [e.key, e.before, e.after, e.text], ∀ c ∈ w, P c) :
    ∀ c ∈ objectText front sep close entries, P c := by
  simp only [List.forall_mem_cons] at hmarks hspaces h
  obtain ⟨hquote, hcomma, hcolon, hopen, hend, -⟩ := hmarks
  obtain ⟨hfront, hsep, hclose, -⟩ := hspaces
  have hmembers : ∀ text ∈ entries.map Entry.memberText, ∀ c ∈ text, P c := by
    intro text htext
    obtain ⟨e, he, rfl⟩ := List.mem_map.mp htext
    obtain ⟨hkey, hbefore, hafter, hvalue, -⟩ := h e he
    simp only [Entry.memberText, List.forall_mem_cons, List.forall_mem_append]
    exact ⟨hquote, hkey, hquote, hbefore, hcolon, hafter, hvalue⟩
  simp only [objectText, List.forall_mem_cons, List.forall_mem_append]
  exact ⟨hopen, hfront, forall_intercalate (List.forall_mem_cons.mpr ⟨hcomma, hsep⟩) hmembers,
    hclose, hend, nofun⟩

theorem spaces_of_blank {w : Str} (h : Blank w) : Spaces w := by
  intro c hc
  have hspace : ∀ c : UInt8, Json.isSpace c = true → isSpace c = true :=
    forall_bytes (by decide +kernel)
  exact hspace c (h c hc)

theorem spells_entries {entries : List Entry} {sep close : Str} (hsep : Blank sep)
    (hclose : Blank close) (hplain : ∀ e ∈ entries, e.Plain)
    (h : ∀ e ∈ entries, Spells (.value e.var) e.text) (hne : entries ≠ []) :
    Spells (.members (entries.map fun e => (e.key, e.var)))
      (List.intercalate (44 :: sep) (entries.map Entry.memberText) ++ close) := by
  induction entries with
  | nil => exact absurd rfl hne
  | cons e entries ih =>
    rw [List.forall_mem_cons] at h hplain
    obtain ⟨⟨hkey, -⟩, hbefore, hafter⟩ := hplain.1
    cases entries with
    | nil =>
      have hlast := Spells.member hkey (spaces_of_blank hbefore) (spaces_of_blank hafter) h.1
        (.inl (spaces_of_blank hclose)) .noMembers
      simpa [List.intercalate, Entry.memberText] using hlast
    | cons e' entries =>
      have hseparates : Separates (44 :: sep) :=
        .inr ⟨[], sep, rfl, nofun, spaces_of_blank hsep⟩
      have hmember := Spells.member hkey (spaces_of_blank hbefore) (spaces_of_blank hafter) h.1
        hseparates (ih hplain.2 h.2 (List.cons_ne_nil e' entries))
      simpa [List.intercalate, List.intersperse, Entry.memberText] using hmember

namespace Document

variable {json : Json.Value} {var : Var} {text : Str}

theorem spells (h : Document json var text) : Spells (.value var) text := by
  induction h with
  | string hquote h => exact .quoted hquote
  | @object entries front sep close hfront hsep hclose hplain h ih =>
    by_cases hne : entries = []
    · subst hne
      have hempty := Spells.struct
        (spaces_of_blank (List.forall_mem_append.mpr ⟨hfront, hclose⟩)) .noMembers
      simpa [objectVar, objectText, List.intercalate] using hempty
    · have hstruct := Spells.struct (spaces_of_blank hfront)
        (spells_entries hsep hclose hplain ih hne)
      simpa [objectVar, objectText] using hstruct

theorem fills (h : Document json var text) : Fills json text := by
  induction h with
  | string hquote h => exact fills_string h.1
  | @object entries front sep close hfront hsep hclose hplain h ih =>
    by_cases hne : entries = []
    · subst hne
      have hempty := fills_object_nil (List.forall_mem_append.mpr ⟨hfront, hclose⟩)
      simpa [objectJson, objectText, List.intercalate] using hempty
    · refine fills_object hfront hsep hclose (fun e he => ?_) hne
      obtain ⟨⟨-, hkey⟩, hbefore, hafter⟩ := hplain e he
      refine ⟨[], e.before, e.after ++ e.text, nofun, hbefore, hkey.1, ?_, rfl⟩
      exact (ih e he).pad_left hafter

/-- The value that the parser reads is spelled as it is. -/
theorem literal (h : Document json var text) : Literal false var := by
  induction h with
  | string hquote h => exact .raw h
  | @object entries front sep close hfront hsep hclose hplain h ih =>
    have hmember {m : Str × Var}
        (hm : m ∈ SortedMaps.insertAll [] (entries.map fun e => (e.key, e.var))) :
        ∃ e ∈ entries, (e.key, e.var) = m := by
      rcases SortedMaps.mem_of_mem_insertAll hm with hm | hm
      · cases hm
      · exact List.mem_map.mp hm
    refine .struct (SortedMaps.sorted_insertAll List.Pairwise.nil _) (fun m hm => ?_) fun m hm => ?_
    · obtain ⟨e, he, rfl⟩ := hmember hm
      exact (hplain e he).key.2
    · obtain ⟨e, he, rfl⟩ := hmember hm
      exact ih e he

theorem parse_eq (h : Document json var text) : parse text = .ok var := by
  have hparse := h.spells.parse_eq []
  rwa [List.append_nil] at hparse

end Document

end Starfall.Vars
