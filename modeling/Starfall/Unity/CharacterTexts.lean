import Starfall.Common.Documents
import Starfall.ProofKit.Folds
import Starfall.Unity.EditCharacter

/-! The text in which the colors of a character are saved.  It is JSON with a group for each of the
head, the top, the bottom, the hands and the feet, and `Var::parse` reads the same document from
it. -/

namespace Starfall.EditCharacter

open ProofKit ProofKit.Folds Vars

variable {R : Type}

/-- A string behind a key, with spaces around the colon. -/
def stringEntry (key : String) (value : Str) : Entry :=
  ⟨Str.ofString key, [32], [32], .string value, .string value, quote value⟩

/-- An object behind a key, without spaces. -/
def objectEntry (key : String) (sep : Str) (entries : List Entry) : Entry :=
  ⟨Str.ofString key, [], [], objectJson entries, objectVar entries, objectText [] sep [] entries⟩

variable (format : R → Str)

def partEntry (name : String) (c : Color R) : Entry :=
  objectEntry name [32] [stringEntry "type" (Str.ofString "color"),
    stringEntry "red" (format c.r), stringEntry "green" (format c.g),
    stringEntry "blue" (format c.b)]

def groupEntry (groupName : String) (content : List Entry) : Entry :=
  objectEntry groupName []
    [{ stringEntry "type" (Str.ofString "group") with before := [], after := [] },
      objectEntry "content" [32] content]

/-- The document with the colors of the parts. -/
def savedEntries (look : String → Color R) : List Entry :=
  let head := [stringEntry "name" (Str.ofString "Parts"),
    stringEntry "datetime" (Str.ofString "--")]
  let body := groups.map fun group =>
    groupEntry group.1 (group.2.map fun name => partEntry format name (look name))
  [⟨Str.ofString "head", [32], [32], objectJson head, objectVar head, objectText [32] [] [32] head⟩,
    ⟨Str.ofString "body", [32], [32], objectJson body, objectVar body, objectText [32] [] [] body⟩,
    ⟨Str.ofString "foot", [32], [32], objectJson [], objectVar [], objectText [] [] [] []⟩]

def savedText (look : String → Color R) : Str := objectText [] [] [] (savedEntries format look)

theorem memberText_part (part : EditCharacterItem R) :
    (partEntry format part.name part.material).memberText = partText format part := by
  simp only [partText, partEntry, objectEntry, stringEntry, Entry.memberText, objectText, quote,
    List.map_cons, List.map_nil, List.intercalate_cons_cons, List.intercalate_singleton,
    List.append_assoc, List.cons_append, List.nil_append]
  rfl

theorem memberText_group (groupName : String) (group : List (EditCharacterItem R)) :
    (groupEntry groupName
      (group.map fun part => partEntry format part.name part.material)).memberText =
        buildGroup format groupName group := by
  have hcontent : (group.map fun part => partEntry format part.name part.material).map
      Entry.memberText = group.map (partText format) := by
    rw [List.map_map]
    exact List.map_congr_left fun part _ => memberText_part format part
  simp only [buildGroup, groupEntry, objectEntry, stringEntry, Entry.memberText, objectText, quote,
    hcontent, List.map_cons, List.map_nil, List.intercalate_cons_cons, List.intercalate_singleton,
    List.append_assoc, List.cons_append, List.nil_append]
  rfl

variable {parts : List (EditCharacterItem R)} {look : String → Color R}

theorem findPart_eq {name : String} (h : name ∈ parts.map (·.name)) :
    ∃ part ∈ parts, findPart parts name = some part ∧ part.name = name := by
  obtain ⟨part, hpart, hname⟩ := List.mem_map.mp h
  have hsome : (findPart parts name).isSome :=
    List.find?_isSome.mpr ⟨part, hpart, decide_eq_true hname⟩
  obtain ⟨found, hfound⟩ := Option.isSome_iff_exists.mp hsome
  have hfind : parts.find? (fun part => decide (part.name = name)) = some found := hfound
  have hsame := List.find?_some hfind
  exact ⟨found, List.mem_of_find?_eq_some hfind, hfound, by simpa using hsame⟩

/-- The parts of a group are found, and their entries are those of the names. -/
theorem mapM_findPart (hlook : ∀ part ∈ parts, look part.name = part.material)
    {names : List String} (h : ∀ name ∈ names, name ∈ parts.map (·.name)) :
    ∃ content, names.mapM (findPart parts) = some content ∧
      content.map (fun part => partEntry format part.name part.material) =
        names.map fun name => partEntry format name (look name) := by
  induction names with
  | nil => exact ⟨[], rfl, rfl⟩
  | cons name names ih =>
    rw [List.forall_mem_cons] at h
    obtain ⟨part, hpart, hfind, hname⟩ := findPart_eq h.1
    obtain ⟨content, hcontent, hentries⟩ := ih h.2
    refine ⟨part :: content, ?_, ?_⟩
    · rw [List.mapM_cons, hfind, hcontent]
      rfl
    · rw [List.map_cons, List.map_cons, hentries, hname, ← hlook part hpart, hname]

/-- All parts are found, and the text is that of the document with their colors. -/
theorem build_eq (hnames : parts.map (·.name) = partNames.map (·.1))
    (hlook : ∀ part ∈ parts, look part.name = part.material) :
    build format parts = some (savedText format look) := by
  have hgroup : ∀ group ∈ groups, (do
      let content ← group.2.mapM (findPart parts)
      pure (buildGroup format group.1 content)) =
        some (groupEntry group.1 (group.2.map fun name =>
          partEntry format name (look name))).memberText := by
    intro group hmem
    have hmembers : ∀ group ∈ groups, ∀ name ∈ group.2, name ∈ partNames.map (·.1) := by decide
    have hnamed : ∀ name ∈ group.2, name ∈ parts.map (·.name) := by
      rw [hnames]
      exact hmembers group hmem
    obtain ⟨content, hcontent, hentries⟩ := mapM_findPart format hlook hnamed
    rw [hcontent, ← hentries, memberText_group]
    rfl
  have hgroups : groups.mapM (fun group => do
      let content ← group.2.mapM (findPart parts)
      pure (buildGroup format group.1 content)) =
        some (groups.map fun group => (groupEntry group.1 (group.2.map fun name =>
          partEntry format name (look name))).memberText) :=
    mapM_eq_some.mpr (List.forall₂_map_right_iff.mpr (List.forall₂_same.mpr hgroup))
  rw [build, hgroups]
  refine congrArg some ?_
  simp only [savedText, savedEntries, stringEntry, Entry.memberText, objectText, quote,
    List.map_cons, List.map_nil, List.map_map, List.intercalate_cons_cons,
    List.intercalate_singleton, List.append_assoc, List.cons_append, List.nil_append]
  rfl

variable {format}

def Ascii (s : Str) : Prop := ∀ c ∈ s, c < 128

instance (s : Str) : Decidable (Ascii s) := List.decidableBAll _ s

/-- What may stand between quotes, in ASCII. -/
def Quotable (s : Str) : Prop := 34 ∉ s ∧ IsLiteral s ∧ Ascii s

instance (s : Str) : Decidable (Quotable s) := inferInstanceAs (Decidable (_ ∧ _))

/-- Numbers are printed in ASCII, without quotes and backslashes. -/
def Printable (format : R → Str) : Prop :=
  ∀ x, ∀ c ∈ format x, 32 ≤ c ∧ c < 128 ∧ c ≠ 34 ∧ c ≠ 92

theorem Printable.quotable (h : Printable format) (x : R) : Quotable (format x) :=
  ⟨fun hquote => (h x 34 hquote).2.2.1 rfl,
    ⟨Json.isSpelling_plain fun c hc => ⟨(h x c hc).1, (h x c hc).2.2⟩,
      fun hslash => (h x 92 hslash).2.2.2 rfl⟩, fun c hc => (h x c hc).2.1⟩

/-- A member whose text is a document in ASCII. -/
structure Written (e : Entry) : Prop where
  stands : e.Stands
  ascii : ∀ w ∈ [e.key, e.before, e.after, e.text], Ascii w

theorem ascii_blank {w : Str} (h : Json.Blank w) : Ascii w := by
  intro c hc
  have hspace : ∀ c : UInt8, Json.isSpace c = true → c < 128 := forall_bytes (by decide +kernel)
  exact hspace c (h c hc)

theorem ascii_objectText {entries : List Entry} {front sep close : Str} (hfront : Json.Blank front)
    (hsep : Json.Blank sep) (hclose : Json.Blank close) (h : ∀ e ∈ entries, Written e) :
    Ascii (objectText front sep close entries) := by
  refine forall_objectText (by decide : Ascii [34, 44, 58, 123, 125]) ?_ fun e he => (h e he).ascii
  simp only [List.forall_mem_cons]
  exact ⟨ascii_blank hfront, ascii_blank hsep, ascii_blank hclose, nofun⟩

theorem written_string {key : String} {value : Str} {before after : Str}
    (hkey : Quotable (Str.ofString key)) (hvalue : Quotable value) (hbefore : Json.Blank before)
    (hafter : Json.Blank after) :
    Written ⟨Str.ofString key, before, after, .string value, .string value, quote value⟩ := by
  refine ⟨⟨⟨⟨hkey.1, hkey.2.1⟩, hbefore, hafter⟩, .string hvalue.1 hvalue.2.1⟩, ?_⟩
  have hquote : Ascii (quote value) := by
    rw [Ascii, quote, List.forall_mem_cons, List.forall_mem_append]
    exact ⟨by decide, hvalue.2.2, List.forall_mem_singleton.mpr (by decide)⟩
  simp only [List.forall_mem_cons]
  exact ⟨hkey.2.2, ascii_blank hbefore, ascii_blank hafter, hquote, List.forall_mem_nil _⟩

theorem written_object {key : String} {entries : List Entry} {before after front sep close : Str}
    (hkey : Quotable (Str.ofString key)) (h : ∀ e ∈ entries, Written e)
    (hblank : ∀ w ∈ [before, after, front, sep, close], Json.Blank w) :
    Written ⟨Str.ofString key, before, after, objectJson entries, objectVar entries,
      objectText front sep close entries⟩ := by
  simp only [List.forall_mem_cons] at hblank
  obtain ⟨hbefore, hafter, hfront, hsep, hclose, -⟩ := hblank
  refine ⟨⟨⟨⟨hkey.1, hkey.2.1⟩, hbefore, hafter⟩,
    document_object hfront hsep hclose fun e he => (h e he).stands⟩, ?_⟩
  simp only [List.forall_mem_cons]
  exact ⟨hkey.2.2, ascii_blank hbefore, ascii_blank hafter, ascii_objectText hfront hsep hclose h,
    nofun⟩

theorem written_part (hformat : Printable format) {name : String}
    (hname : Quotable (Str.ofString name)) (c : Color R) : Written (partEntry format name c) := by
  refine written_object hname ?_ (by decide)
  simp only [List.forall_mem_cons]
  exact ⟨written_string (by decide) (by decide) (by decide) (by decide),
    written_string (by decide) (hformat.quotable _) (by decide) (by decide),
    written_string (by decide) (hformat.quotable _) (by decide) (by decide),
    written_string (by decide) (hformat.quotable _) (by decide) (by decide), nofun⟩

theorem written_group {groupName : String} (hname : Quotable (Str.ofString groupName))
    {content : List Entry} (h : ∀ e ∈ content, Written e) :
    Written (groupEntry groupName content) := by
  refine written_object hname ?_ (by decide)
  simp only [List.forall_mem_cons]
  exact ⟨written_string (by decide) (by decide) (by decide) (by decide),
    written_object (by decide) h (by decide), nofun⟩

theorem written_saved (hformat : Printable format) (look : String → Color R) :
    ∀ e ∈ savedEntries format look, Written e := by
  have hgroups : ∀ group ∈ groups, Quotable (Str.ofString group.1) ∧
      ∀ name ∈ group.2, Quotable (Str.ofString name) := by decide
  have hbody : ∀ e ∈ groups.map fun group =>
      groupEntry group.1 (group.2.map fun name => partEntry format name (look name)),
      Written e := by
    intro e he
    obtain ⟨group, hgroup, rfl⟩ := List.mem_map.mp he
    obtain ⟨hname, hnames⟩ := hgroups group hgroup
    refine written_group hname fun e he => ?_
    obtain ⟨name, hmem, rfl⟩ := List.mem_map.mp he
    exact written_part hformat (hnames name hmem) (look name)
  have hhead : ∀ e ∈ [stringEntry "name" (Str.ofString "Parts"),
      stringEntry "datetime" (Str.ofString "--")], Written e := by
    simp only [List.forall_mem_cons]
    exact ⟨written_string (by decide) (by decide) (by decide) (by decide),
      written_string (by decide) (by decide) (by decide) (by decide), nofun⟩
  simp only [savedEntries, List.forall_mem_cons]
  exact ⟨written_object (by decide) hhead (by decide), written_object (by decide) hbody (by decide),
    written_object (by decide) nofun (by decide), nofun⟩

theorem savedText_document (hformat : Printable format) (look : String → Color R) :
    Document (objectJson (savedEntries format look)) (objectVar (savedEntries format look))
      (savedText format look) :=
  document_object (by decide) (by decide) (by decide) fun e he =>
    (written_saved hformat look e he).stands

theorem ascii_savedText (hformat : Printable format) (look : String → Color R) :
    Ascii (savedText format look) :=
  ascii_objectText (by decide) (by decide) (by decide) (written_saved hformat look)

variable (format)

/-- The document as JSON. -/
def savedJson (look : String → Color R) : Json.Value :=
  .object [(Str.ofString "head", .object [(Str.ofString "name", .string (Str.ofString "Parts")),
      (Str.ofString "datetime", .string (Str.ofString "--"))]),
    (Str.ofString "body", .object (groups.map fun group =>
      (Str.ofString group.1, .object [(Str.ofString "type", .string (Str.ofString "group")),
        (Str.ofString "content", .object (group.2.map fun name =>
          (Str.ofString name, .object [(Str.ofString "type", .string (Str.ofString "color")),
            (Str.ofString "red", .string (format (look name).r)),
            (Str.ofString "green", .string (format (look name).g)),
            (Str.ofString "blue", .string (format (look name).b))])))]))),
    (Str.ofString "foot", .object [])]

theorem objectJson_saved (look : String → Color R) :
    objectJson (savedEntries format look) = savedJson format look := by
  simp only [objectJson, savedEntries, savedJson, List.map_cons, List.map_nil, List.map_map]
  rfl

/-- The groups as `Var::parse` reads them: the members are in the order of their keys. -/
def savedBody (look : String → Color R) : List (Str × Var) :=
  SortedMaps.insertAll [] (groups.map fun group =>
    (Str.ofString group.1, .struct [(Str.ofString "content",
        .struct (SortedMaps.insertAll [] (group.2.map fun name =>
          (Str.ofString name, .struct [(Str.ofString "blue", .string (format (look name).b)),
            (Str.ofString "green", .string (format (look name).g)),
            (Str.ofString "red", .string (format (look name).r)),
            (Str.ofString "type", .string (Str.ofString "color"))])))),
      (Str.ofString "type", .string (Str.ofString "group"))]))

def savedVar (look : String → Color R) : Var :=
  .struct [(Str.ofString "body", .struct (savedBody format look)),
    (Str.ofString "foot", .struct []),
    (Str.ofString "head", .struct [(Str.ofString "datetime", .string (Str.ofString "--")),
      (Str.ofString "name", .string (Str.ofString "Parts"))])]

theorem objectVar_part (name : String) (c : Color R) : (partEntry format name c).var =
    .struct [(Str.ofString "blue", .string (format c.b)),
      (Str.ofString "green", .string (format c.g)), (Str.ofString "red", .string (format c.r)),
      (Str.ofString "type", .string (Str.ofString "color"))] := rfl

theorem objectVar_group (groupName : String) (content : List Entry) :
    (groupEntry groupName content).var = .struct [(Str.ofString "content", objectVar content),
      (Str.ofString "type", .string (Str.ofString "group"))] := rfl

theorem objectVar_saved (look : String → Color R) :
    objectVar (savedEntries format look) = savedVar format look := by
  have hbody : objectVar (groups.map fun group =>
      groupEntry group.1 (group.2.map fun name => partEntry format name (look name))) =
        .struct (savedBody format look) := by
    simp only [savedBody, objectVar, List.map_map, Function.comp_def, objectVar_group,
      objectVar_part]
    rfl
  rw [savedVar, ← hbody]
  rfl

end Starfall.EditCharacter
