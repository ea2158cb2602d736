import Starfall.ProofKit.Transducers

/-! The tags of a text that is tokenised as HTML.  The states are those of the HTML standard that
the markup of the page can lead to: the content of scripts, of styles and of text areas is not among
them, the states of a comment that only report errors are left out, and a document type is read as
a comment that ends with its first `>`.  Values of attributes are skipped. -/

namespace Starfall.Html

open ProofKit.Transducers

structure Tag where
  isEnd : Bool
  name : List Char
  attributes : List (List Char)
  selfClosing : Bool
  deriving DecidableEq, Repr

/-- Between the letters of a text, with the tag that is being read. -/
inductive State
  | data
  | tagOpen
  | endTagOpen
  | tagName (tag : Tag)
  | beforeAttributeName (tag : Tag)
  | attributeName (tag : Tag) (attr : List Char)
  | afterAttributeName (tag : Tag)
  | beforeAttributeValue (tag : Tag)
  | doubleQuoted (tag : Tag)
  | singleQuoted (tag : Tag)
  | unquoted (tag : Tag)
  | afterQuoted (tag : Tag)
  | selfClosing (tag : Tag)
  | bogusComment
  | markupDeclarationOpen
  | markupDeclarationDash
  | commentStart
  | commentStartDash
  | comment
  | commentEndDash
  | commentEnd
  | commentEndBang
  deriving DecidableEq, Repr

def isWhitespace (c : Char) : Bool := c ∈ ['\t', '\n', '\x0c', '\r', ' ']

def lower (c : Char) : Char := if c = '\x00' then '\ufffd' else c.toLower

def Tag.appendName (tag : Tag) (c : Char) : Tag := { tag with name := tag.name ++ [lower c] }

/-- A tag keeps the first of several attributes of one name. -/
def Tag.addAttribute (tag : Tag) (attr : List Char) : Tag :=
  if attr ∈ tag.attributes then tag
  else { tag with attributes := tag.attributes ++ [attr] }

def data (c : Char) : State := if c = '<' then .tagOpen else .data

def bogusComment (c : Char) : State := if c = '>' then .data else .bogusComment

def comment (c : Char) : State := if c = '-' then .commentEndDash else .comment

def beforeAttributeName (tag : Tag) (c : Char) : State × List Tag :=
  if isWhitespace c then (.beforeAttributeName tag, [])
  else if c = '/' then (.selfClosing tag, [])
  else if c = '>' then (.data, [tag])
  else (.attributeName tag [lower c], [])

def afterAttributeName (tag : Tag) (c : Char) : State × List Tag :=
  if isWhitespace c then (.afterAttributeName tag, [])
  else if c = '/' then (.selfClosing tag, [])
  else if c = '=' then (.beforeAttributeValue tag, [])
  else if c = '>' then (.data, [tag])
  else (.attributeName tag [lower c], [])

def attributeName (tag : Tag) (attr : List Char) (c : Char) : State × List Tag :=
  if isWhitespace c ∨ c = '/' ∨ c = '>' then afterAttributeName (tag.addAttribute attr) c
  else if c = '=' then (.beforeAttributeValue (tag.addAttribute attr), [])
  else (.attributeName tag (attr ++ [lower c]), [])

def unquoted (tag : Tag) (c : Char) : State × List Tag :=
  if isWhitespace c then (.beforeAttributeName tag, [])
  else if c = '>' then (.data, [tag])
  else (.unquoted tag, [])

def step : State → Char → State × List Tag
  | .data, c => (data c, [])
  | .tagOpen, c =>
    if c = '!' then (.markupDeclarationOpen, [])
    else if c = '/' then (.endTagOpen, [])
    else if c.isAlpha then (.tagName ⟨false, [lower c], [], false⟩, [])
    else if c = '?' then (.bogusComment, [])
    else (data c, [])
  | .endTagOpen, c =>
    if c.isAlpha then (.tagName ⟨true, [lower c], [], false⟩, [])
    else if c = '>' then (.data, [])
    else (bogusComment c, [])
  | .tagName tag, c =>
    if isWhitespace c then (.beforeAttributeName tag, [])
    else if c = '/' then (.selfClosing tag, [])
    else if c = '>' then (.data, [tag])
    else (.tagName (tag.appendName c), [])
  | .beforeAttributeName tag, c => beforeAttributeName tag c
  | .attributeName tag attr, c => attributeName tag attr c
  | .afterAttributeName tag, c => afterAttributeName tag c
  | .beforeAttributeValue tag, c =>
    if isWhitespace c then (.beforeAttributeValue tag, [])
    else if c = '"' then (.doubleQuoted tag, [])
    else if c = '\'' then (.singleQuoted tag, [])
    else unquoted tag c
  | .doubleQuoted tag, c => (if c = '"' then .afterQuoted tag else .doubleQuoted tag, [])
  | .singleQuoted tag, c => (if c = '\'' then .afterQuoted tag else .singleQuoted tag, [])
  | .unquoted tag, c => unquoted tag c
  | .afterQuoted tag, c => beforeAttributeName tag c
  | .selfClosing tag, c =>
    if c = '>' then (.data, [{ tag with selfClosing := true }]) else beforeAttributeName tag c
  | .bogusComment, c => (bogusComment c, [])
  | .markupDeclarationOpen, c =>
    (if c = '-' then .markupDeclarationDash else bogusComment c, [])
  | .markupDeclarationDash, c => (if c = '-' then .commentStart else bogusComment c, [])
  | .commentStart, c =>
    (if c = '-' then .commentStartDash else if c = '>' then .data else .comment, [])
  | .commentStartDash, c =>
    (if c = '-' then .commentEnd else if c = '>' then .data else .comment, [])
  | .comment, c => (comment c, [])
  | .commentEndDash, c => (if c = '-' then .commentEnd else .comment, [])
  | .commentEnd, c =>
    (if c = '>' then .data else if c = '!' then .commentEndBang
      else if c = '-' then .commentEnd else .comment, [])
  | .commentEndBang, c =>
    (if c = '-' then .commentEndDash else if c = '>' then .data else .comment, [])

def html : Transducer State Char Tag := ⟨step⟩

/-- The start and end tags of a text, in order. -/
def tags (text : List Char) : List Tag := (html.run .data text).2

/-- A string that no markup begins in, in front of some. -/
def Text (s : List Char) : Prop := html.Unseen .data s '<'

instance (s : List Char) : Decidable (Text s) :=
  inferInstanceAs (Decidable (_ = _))

/-- Where the hole of a template is, between the tags or in the value of an attribute. -/
inductive Position
  | text
  | value
  deriving DecidableEq, Repr

def position : State → Option Char → Option Position
  | .data, some c => if c ∈ ['<', '\n', ' '] then some .text else none
  | .singleQuoted _, some _ => some .value
  | _, _ => none

variable {I : Type}

def positions (t : List (Piece I Char)) : List (I × Option Position) :=
  (Piece.holes html .data t).map fun hole => (hole.2.1, position hole.1 hole.2.2)

/-- What a filling has to be at its position. -/
def Inert (s : List Char) : Option Position → Prop
  | some .text => Text s
  | some .value => '\'' ∉ s
  | none => False

/-- Only between the tags, or where one would begin, does `<` begin one. -/
theorem state_of_lt {s : State} (h : step s '<' = (.tagOpen, [])) :
    s = .data ∨ s = .tagOpen := by
  cases s with
  | data => exact .inl rfl
  | tagOpen => exact .inr rfl
  | _ => simp [step, isWhitespace, bogusComment, comment, beforeAttributeName,
      afterAttributeName, attributeName, unquoted] at h

theorem Text.unseen {s : List Char} {c : Char} (h : Text s) (hc : c ∈ ['<', '\n', ' ']) :
    html.Unseen .data s c := by
  have hlt : html.run .data (s ++ ['<']) = (.tagOpen, []) := h
  rw [Transducer.run_append, Transducer.run, Transducer.run, Prod.mk.injEq, List.append_eq_nil_iff,
    List.append_nil] at hlt
  obtain ⟨hopen, hbefore, hat⟩ := hlt
  have hsame : step .tagOpen c = step .data c := by
    rcases List.mem_cons.mp hc with rfl | hc
    · rfl
    · rcases List.mem_cons.mp hc with rfl | hc
      · rfl
      · rw [List.mem_singleton.mp hc]
        rfl
  have hend : step (html.run .data s).1 c = step .data c := by
    rcases state_of_lt (Prod.ext hopen hat) with hdata | htag
    · rw [hdata]
    · rw [htag, hsame]
  rw [Transducer.Unseen, Transducer.run_append, hbefore]
  exact congrArg (fun q => (q.1, q.2 ++ [])) hend

theorem unseen_quoted {s : List Char} (h : '\'' ∉ s) (tag : Tag) (a : Char) :
    html.Unseen (.singleQuoted tag) s a := by
  refine .of_stays (fun c hc => ?_) _
  have hne : c ≠ '\'' := by
    rintro rfl
    exact h hc
  exact Prod.ext (if_neg hne) rfl

/-- A filling that is inert at its position is unseen there. -/
theorem Inert.unseen {s : State} {filling : List Char} {a : Option Char}
    (h : Inert filling (position s a)) : ∃ c, a = some c ∧ html.Unseen s filling c := by
  unfold position at h
  split at h
  · rename_i c
    split at h
    · rename_i hc
      exact ⟨c, rfl, Text.unseen h hc⟩
    · cases h
  · rename_i tag c
    exact ⟨c, rfl, unseen_quoted h tag c⟩
  · cases h

theorem run_plain {s : List Char} (h : '<' ∉ s) : html.run .data s = (.data, []) := by
  induction s with
  | nil => rfl
  | cons c s ih =>
    rw [List.mem_cons, not_or] at h
    have hc : html.step .data c = (.data, []) := Prod.ext (if_neg (Ne.symm h.1)) rfl
    rw [Transducer.run, hc, ih h.2]
    rfl

theorem text_plain {s : List Char} (h : '<' ∉ s) : Text s := by
  rw [Text, Transducer.Unseen, Transducer.run_append, run_plain h]
  rfl

theorem run_template {t : List (Piece I Char)} {f : I → List Char}
    (h : ∀ x ∈ positions t, Inert (f x.1) x.2) :
    html.run .data (Piece.fill f t) = html.run .data (Piece.fill (fun _ => []) t) := by
  refine Piece.run_fill fun hole hhole => ?_
  exact Inert.unseen (h _ (List.mem_map_of_mem hhole))

theorem alike_template {t : List (Piece I Char)} {f : I → List Char}
    (h : ∀ x ∈ positions t, Inert (f x.1) x.2)
    (hdata : html.after .data (Piece.fill (fun _ => []) t) = .data) :
    html.Alike .data (Piece.fill f t) (Piece.fill (fun _ => []) t) .data :=
  .of_run_eq (run_template h) ((html.run_fst _ _).trans hdata)

/-- Markup without holes that ends between tags. -/
theorem alike_markup {s : List Char} (hdata : html.after .data s = .data) :
    html.Alike .data s s .data :=
  .of_run_eq rfl ((html.run_fst _ _).trans hdata)

end Starfall.Html
