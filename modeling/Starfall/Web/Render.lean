import Starfall.Web.Appearance

/-! `App.components.render` of `app.js`: the markup of console messages.  The concatenations of the
source are templates here, with a hole for each string that is put in. -/

namespace Starfall.Components

open ProofKit.Transducers

variable {N : Type} (num : Numbers N)

/-- Which bytes of the dump hold a field of the message. -/
structure HexMap where
  name : Str
  beginIdx : Nat
  endIdx : Nat

/-- What the page reads of a message of the console: of its head, its body and its foot. -/
structure Message (N : Type) where
  name : Str
  datetime : Str
  body : List (Str × Value N)
  hex : Option Str
  maps : List HexMap

def toUpperCase (s : Str) : Str := s.map Char.toUpper

inductive IntegerHole
  | hexadecimal
  | decimal
  deriving DecidableEq, Repr

def integerTemplate : List (Piece IntegerHole Char) :=
  [ .text "<li>Hexadecimal<p class='ui-li-aside'>".toList,
    .hole .hexadecimal,
    .text "</p></li><li>Decimal<p class='ui-li-aside'>".toList,
    .hole .decimal,
    .text "</p></li>".toList ]

def renderInteger (value : N) : Str :=
  Piece.fill (fun
    | .hexadecimal => toUpperCase (num.hexadecimal value)
    | .decimal => toUpperCase (num.decimal value)) integerTemplate

def itemTemplate : List (Piece Unit Char) :=
  [.text "<li>".toList, .hole (), .text "</li>".toList]

def renderPrimitive : Value N → Str
  | .number n => renderInteger num n
  | .string s =>
    match parseInt s with
    | none => Piece.fill (fun _ => s) itemTemplate
    | some tryInt => renderInteger num (num.ofInt tryInt)
  | .boolean _ => Piece.fill (fun _ => "boolean".toList) itemTemplate
  | _ => Piece.fill (fun _ => "object".toList) itemTemplate

def collapsibleTemplate : List (Piece Unit Char) :=
  [ .text "<div data-role='collapsible' data-inset='false' data-mini='true'><h3>".toList,
    .hole (),
    .text "</h3><ul data-role='listview' data-inset='true' data-divider-theme='d'>".toList ]

def renderCollapsible (entryName : Str) (value : Value N) : Str :=
  Piece.fill (fun _ => entryName) collapsibleTemplate ++ renderPrimitive num value ++
    "</ul></div>".toList

inductive AppearanceHole
  | root
  | anchor
  deriving DecidableEq, Repr

def appearanceTemplate : List (Piece AppearanceHole Char) :=
  [ .text "</ul><div id='".toList,
    .hole .root,
    .text "'><a href='#' id='".toList,
    .hole .anchor,
    .text "' data-role='button'><span style='color:#00DD00'>Item Link</a></div>".toList ]

/-- The ids of the component that is the `subCounter`th of its message. -/
def appearanceIDs (idString : Str) (subCounter : Nat) : AppearanceHole → Str
  | .root => idString ++ "_root_".toList ++ decimal subCounter
  | .anchor => idString ++ "_anchor_".toList ++ decimal subCounter

/-- `appearanceRenderer.render`, with the next `subCounter`. -/
def renderAppearance (idString : Str) (obj : Value N) (subCounter : Nat) : Option (Str × Nat) := do
  let html ← view num idString obj
  some ("<ul data-role='listview' data-inset='true' data-divider-theme='d'>".toList ++ html ++
    Piece.fill (appearanceIDs idString subCounter) appearanceTemplate, subCounter + 1)

def appearance : Str := "appearance".toList

/-- Two renderings in a row, the second of which gets the counter of the first. -/
def inTurn (x : Option (Str × Nat)) (f : Nat → Option (Str × Nat)) : Option (Str × Nat) := do
  let first ← x
  let second ← f first.2
  some (first.1 ++ second.1, second.2)

mutual

/-- The markup of the value of a property, and the next `subCounter`. -/
def renderData (idString : Str) (entryName : Str) (subCounter : Nat) :
    Value N → Option (Str × Nat)
  | .null =>
    if entryName = appearance then renderAppearance num idString .null subCounter
    else some ([], subCounter)
  | .array items =>
    if entryName = appearance then renderAppearance num idString (.array items) subCounter
    else renderItems idString 0 subCounter items
  | .object properties =>
    if entryName = appearance then renderAppearance num idString (.object properties) subCounter
    else renderProperties idString subCounter properties
  | value => some (renderCollapsible num entryName value, subCounter)

def renderItems (idString : Str) (i subCounter : Nat) : List (Value N) → Option (Str × Nat)
  | [] => some ([], subCounter)
  | value :: items =>
    inTurn (renderData idString (decimal i) subCounter value) fun subCounter =>
      renderItems idString (i + 1) subCounter items

def renderProperties (idString : Str) (subCounter : Nat) :
    List (Str × Value N) → Option (Str × Nat)
  | [] => some ([], subCounter)
  | (name, value) :: properties =>
    inTurn (renderData idString name subCounter value) fun subCounter =>
      renderProperties idString subCounter properties

end

/-- An element of the array that `hexValues` is made of. -/
inductive Cell
  | hex (value : Str)
  | whitespace
  | beginLabel (id color : Str) (endIdx : Nat)
  | endLabel (name : Str)
  | newRowInsideLabel (name color : Str)
  | newRowOutsideLabel
  | beginTable
  | endTable
  deriving DecidableEq, Repr

def hexValues (hex : Str) : List (List Cell) :=
  ((hex.splitOnP fun c => c = ' ' || c = '\n').filter fun value => value.length ≠ 0).map
    fun value => [.hex value, .whitespace]

/-- The labels of the maps around their bytes, unless a byte is missing. -/
def label (idString : Str) :
    List HexMap → Nat → List Str → List (List Cell) → Option (List (List Cell))
  | [], _, _, cells => some cells
  | map :: maps, subCounter, colors, cells =>
    let subIDString := idString ++ '_' :: decimal subCounter
    let color := colors.headD []
    if map.beginIdx < cells.length ∧ map.endIdx < cells.length then
      let cells := cells.modify map.beginIdx (.beginLabel subIDString color map.endIdx :: ·)
      let cells := cells.modify map.endIdx (· ++ [.endLabel map.name])
      label idString maps (subCounter + 1) (colors.tail ++ [color]) cells
    else none

def surround (cells : List (List Cell)) : List (List Cell) :=
  (cells.modify 0 (.beginTable :: ·)).modify (cells.length - 1) (· ++ [.endTable])

def Cell.isLabel : Cell → Bool
  | .beginLabel _ _ _ | .endLabel _ => true
  | _ => false

def Cell.elide : Cell → Cell
  | .endLabel _ => .endLabel "...".toList
  | cell => cell

/-- The name of the last label that ends in a byte. -/
def lastName (cells : List Cell) : Str :=
  cells.foldl (fun name cell => match cell with
    | .endLabel name => name
    | _ => name) []

/-- The search of `insert` for a label, down from a byte. -/
def insertFrom (cells : List (List Cell)) (idx : Nat) : Nat → List (List Cell)
  | 0 => cells
  | j + 1 =>
    match (cells.getD (j + 1) []).find? Cell.isLabel with
    | some (.beginLabel _ color endIdx) =>
      let name := lastName (cells.getD endIdx [])
      let cells := cells.modify endIdx (·.map Cell.elide)
      cells.modify idx (· ++ [.newRowInsideLabel name color])
    | some _ => cells.modify idx (· ++ [.newRowOutsideLabel])
    | none => insertFrom cells idx j

/-- Behind every 16th byte but the last one a row ends. -/
def formatLines (cells : List (List Cell)) : List (List Cell) :=
  (List.range cells.length).foldl (fun cells i =>
    if 0 < i ∧ i < cells.length - 1 ∧ (i + 1) % 16 = 0 then insertFrom cells i i else cells) cells

inductive LabelHole
  | id
  | name
  | color
  deriving DecidableEq, Repr

def beginLabelTemplate : List (Piece LabelHole Char) :=
  [ .text "<td><p style='font-size: 0.6em' id='".toList,
    .hole .id,
    .text "'><span style='color:".toList,
    .hole .color,
    .text "'>".toList ]

def endLabelTemplate : List (Piece LabelHole Char) :=
  [ .text "</span><br/>".toList,
    .hole .name,
    .text "</p></td><td><span style='font-size: 0.6em'>".toList ]

def newRowTemplate : List (Piece LabelHole Char) :=
  [ .text "</span><br/>".toList,
    .hole .name,
    .text "</p></td></tr></table><table border='0' cellspacing='0' cellpadding='0'>".toList,
    .text "<tr><td><p style='font-size:0.6em'><span style='color:".toList,
    .hole .color,
    .text "'>".toList ]

def labelFillings (id name color : Str) : LabelHole → Str
  | .id => id
  | .name => name
  | .color => color

def Cell.markup : Cell → Str
  | .hex value => value
  | .whitespace => " ".toList
  | .beginLabel id color _ =>
    "</span></td>".toList ++ Piece.fill (labelFillings id [] color) beginLabelTemplate
  | .endLabel name => Piece.fill (labelFillings [] name []) endLabelTemplate
  | .newRowInsideLabel name color => Piece.fill (labelFillings [] name color) newRowTemplate
  | .newRowOutsideLabel =>
    "</span></td></tr></table><table><tr><td><span style='font-size:0.6em'>".toList ++
      "<!--NEW ROW OUTSIDE LABEL-->".toList
  | .beginTable =>
    "<!--BEGIN--><table border='0' cellspacing='0' cellpadding='0'>".toList ++
      "<td><span style='font-size: 0.6em'>".toList
  | .endTable => "</span></td></tr></table><!--END-->".toList

/-- The markup of the dump, which leaves out an empty field at its beginning. -/
def cellsMarkup : List Cell → Str
  | _ :: .beginLabel id color _ :: cells =>
    "<!--BEGIN--><table border='0' cellspacing='0' cellpadding='0'>".toList ++
      Piece.fill (labelFillings id [] color) beginLabelTemplate ++ cells.flatMap Cell.markup
  | cells => cells.flatMap Cell.markup

def renderFoot (idString : Str) (hex : Option Str) (maps : List HexMap) : Option Str :=
  match hex with
  | none => some []
  | some hex => do
    let cells ← label idString maps 0 ["#FF0000".toList, "#00FF00".toList] (hexValues hex)
    some ("<li data-role='list-divider'>Hexadecimal</li><li>".toList ++
      cellsMarkup (formatLines (surround cells)).flatten ++ "</li>".toList)

/-- How much smaller than the other text a name is that has more than 12 letters. -/
def scale (s : Str) : N :=
  if length s < 12 then num.ofInt 1 else num.div (num.ofInt 12) (num.ofInt (length s))

inductive MessageHole
  | nameValue
  | id
  | scale
  | name
  | datetime
  deriving DecidableEq, Repr

def messageTemplate : List (Piece MessageHole Char) :=
  [ .text "<div data-role='collapsible' name='".toList,
    .hole .nameValue,
    .text "' id='".toList,
    .hole .id,
    .text "'><h3><span style='font-size:".toList,
    .hole .scale,
    .text "em'>".toList,
    .hole .name,
    .text "</span><span style='float: right; width: 50%; text-align: right'><sup>".toList,
    .hole .datetime,
    .text "</sup></span></h3>".toList,
    .text "<ul data-role='listview' data-inset='true' data-divider-theme='d'>".toList,
    .text "<li data-role='list-divider'>Structure</li>".toList ]

def Message.fillings (idString : Str) (msg : Message N) : MessageHole → Str
  | .nameValue | .name => msg.name
  | .id => idString
  | .scale => num.decimal (scale num msg.name)
  | .datetime => msg.datetime

def renderMessage (counter : Nat) (msg : Message N) : Option Str := do
  let idString := "message_".toList ++ decimal counter
  let (body, _) ← renderProperties num idString 0 msg.body
  let foot ← renderFoot idString msg.hex msg.maps
  some (Piece.fill (msg.fillings num idString) messageTemplate ++ body ++ foot ++
    "</ul></div>".toList)

/-- The markup of the messages, which are numbered from `counter` on, unless it throws. -/
def render (counter : Nat) : List (Message N) → Option Str
  | [] => some []
  | msg :: data => do some ((← renderMessage num counter msg) ++ (← render (counter + 1) data))

end Starfall.Components
