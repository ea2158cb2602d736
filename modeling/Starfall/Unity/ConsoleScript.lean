import Starfall.ProofKit.Forests
import Starfall.ProofKit.Outcomes
import Starfall.Unity.Buffer

/-! `ConsoleScript.js`: the console of the Unity client, which draws the texts of an XML document
onto a texture.  The script knows a node by its first child and its next sibling. -/

namespace Starfall.Unity.ConsoleScript

open ProofKit.Forests

/-- A rectangle lies in a texture of a width and a height. -/
def Within (width height : Nat) (x y : Int) (blockWidth blockHeight : Nat) : Prop :=
  0 ≤ x ∧ x + blockWidth ≤ width ∧ 0 ≤ y ∧ y + blockHeight ≤ height

instance (width height : Nat) (x y : Int) (blockWidth blockHeight : Nat) :
    Decidable (Within width height x y blockWidth blockHeight) :=
  inferInstanceAs (Decidable (_ ∧ _ ∧ _ ∧ _))

/-- Unity's colours and its textures of a width and a height.  Pixels are only refused outside of
the texture or when their number is wrong. -/
structure Textures where
  Color : Type
  same : Color → Color → Bool
  black : Color
  red : Color
  white : Color
  green : Color
  Texture : Nat → Nat → Type
  getPixels {width height : Nat} : Texture width height → Int → Int → Nat → Nat →
    Option (List Color)
  setPixels {width height : Nat} : Texture width height → Int → Int → Nat → Nat →
    List Color → Option (Texture width height)
  getPixels_within {width height : Nat} (texture : Texture width height) {x y : Int}
    {blockWidth blockHeight : Nat} : Within width height x y blockWidth blockHeight →
      ∃ colors, getPixels texture x y blockWidth blockHeight = some colors ∧
        colors.length = blockWidth * blockHeight
  setPixels_within {width height : Nat} (texture : Texture width height) {x y : Int}
    {blockWidth blockHeight : Nat} {colors : List Color} :
    Within width height x y blockWidth blockHeight → colors.length = blockWidth * blockHeight →
      ∃ after, setPixels texture x y blockWidth blockHeight colors = some after

/-- Textures that are functions of the place, with three bytes for a colour.  Pixels are listed row
by row. -/
def rgb24 : Textures where
  Color := UInt8 × UInt8 × UInt8
  same := (· == ·)
  black := (0, 0, 0)
  red := (255, 0, 0)
  white := (255, 255, 255)
  green := (0, 255, 0)
  Texture _ _ := Int → Int → UInt8 × UInt8 × UInt8
  getPixels {width height} texture x y blockWidth blockHeight :=
    if Within width height x y blockWidth blockHeight then
      some ((List.range (blockWidth * blockHeight)).map fun i =>
        texture (x + (i % blockWidth : Nat)) (y + (i / blockWidth : Nat)))
    else none
  setPixels {width height} texture x y blockWidth blockHeight colors :=
    if Within width height x y blockWidth blockHeight ∧
        colors.length = blockWidth * blockHeight then
      some fun x' y' =>
        if x ≤ x' ∧ x' < x + blockWidth ∧ y ≤ y' ∧ y' < y + blockHeight then
          colors.getD ((y' - y).toNat * blockWidth + (x' - x).toNat) (0, 0, 0)
        else texture x' y'
    else none
  getPixels_within texture _ _ _ _ h := ⟨_, if_pos h, by simp⟩
  setPixels_within texture _ _ _ _ _ h hlength := ⟨_, if_pos ⟨h, hlength⟩⟩

/-- What ends a function of the script. -/
inductive Exception
  | outOfRange
  /-- A rectangle of pixels that Unity refuses. -/
  | unity
  | xml
  deriving DecidableEq, Repr

/-- The characters of a name. -/
def text (s : String) : Text := .ofBytes (.ofString s)

/-- An `XmlElement` without its children, or the document that stands above all elements. -/
structure Tag where
  Name : Text
  attributes : List (Text × Text)
  deriving DecidableEq, Repr

/-- An `XmlNode` that is null, an `XmlElement` or an `XmlText`. -/
abbrev XmlNode := Forest Tag Text

def document : Tag := ⟨text "#document", []⟩

/-- The `DocumentElement` of a document. -/
structure DocumentElement where
  tag : Tag
  firstChild : XmlNode

def DocumentElement.node (root : DocumentElement) : XmlNode := .node root.tag root.firstChild .nil

def windowWidth : Nat := 256

def windowHeight : Nat := 256

def lineHeight : Nat := 32

/-- A `FontCharacter` whose `colors` `LoadFont` took from the font's texture.  The characters of
`font.xml` have at most the height of a line and fit into the window. -/
structure FontCharacter (u : Textures) where
  width : Nat
  height : Nat
  xoffset : Int
  yoffset : Int
  xadvance : Int
  colors : List u.Color
  length_colors : colors.length = width * height
  width_le : width ≤ windowWidth
  place_le : xoffset + width ≤ windowWidth
  height_le : height ≤ lineHeight

/-- The `cursor`, whose coordinates have no fractions. -/
structure Cursor where
  x : Int
  y : Int
  deriving DecidableEq, Repr

/-- The variables of the script.  Its background has the size of the window. -/
structure Script (u : Textures) where
  backgroundTexture : u.Texture windowWidth windowHeight
  texture : u.Texture windowWidth windowHeight
  lineOffset : Int
  fontCharacters : Fin 127 → Option (FontCharacter u)
  cursor : Cursor
  state : Bool
  buffer : Text

/-- The arguments of a call of `ApplyToTexture`. -/
structure Call where
  parentNode : Tag
  drawHeading : Bool
  innerText : Text
  deriving DecidableEq, Repr

/-- The script, and the calls of `ApplyToTexture` so far. -/
structure World (u : Textures) where
  script : Script u
  calls : List Call

abbrev Draw (u : Textures) := ExceptT Exception (StateM (World u))

variable {u : Textures}

/-- `colors`, as `Start` fills it. -/
def colors (u : Textures) (name : Text) : Option u.Color :=
  if name = text "red" then some u.red
  else if name = text "white" then some u.white
  else if name = text "green" then some u.green
  else none

def getScript : Draw u (Script u) := do
  return (← get).script

def setScript (script : Script u) : Draw u Unit :=
  modify fun w => { w with script }

def modifyScript (f : Script u → Script u) : Draw u Unit :=
  modify fun w => { w with script := f w.script }

def orThrow {α : Type} (e : Exception) : Option α → Draw u α
  | some a => pure a
  | none => throw e

def Script.newLine (s : Script u) : Script u :=
  { s with cursor := ⟨0, s.cursor.y - lineHeight⟩ }

def newLine : Draw u Unit := modifyScript Script.newLine

/-- The character of a byte: the array has no place for the last byte of ASCII. -/
def fontCharacter (fontCharacters : Fin 127 → Option (FontCharacter u)) (byte : UInt8) :
    Draw u (Option (FontCharacter u)) :=
  if h : byte.toNat < 127 then pure (fontCharacters ⟨byte.toNat, h⟩) else throw .outOfRange

/-- `placeX` and `placeY` of a character, behind the line break that it may need. -/
def Script.place (s : Script u) (drawHeading : Bool) (c : FontCharacter u) :
    Script u × Int × Int :=
  let s := if s.cursor.x + c.xoffset + c.width ≥ windowWidth then s.newLine else s
  let placeX := s.cursor.x + c.xoffset
  let placeY := s.cursor.y + c.yoffset + s.lineOffset * lineHeight
  let placeY :=
    if drawHeading then (windowHeight : Int) - lineHeight
    else if placeY ≥ (windowHeight : Int) - lineHeight then windowHeight
    else placeY
  (s, if placeX < 0 then 0 else placeX, placeY)

/-- `Rect.Contains` for the rectangle of the texture. -/
def Contains (x y : Int) : Prop := 0 ≤ x ∧ x < windowWidth ∧ 0 ≤ y ∧ y < windowHeight

instance (x y : Int) : Decidable (Contains x y) :=
  inferInstanceAs (Decidable (_ ∧ _ ∧ _ ∧ _))

/-- The colour of a pixel that is not black. -/
def foreground (parentNode : Tag) (color : u.Color) : u.Color :=
  if parentNode.Name = text "color" then
    match parentNode.attributes.lookup (text "name") with
    | some name => (colors u name).getD color
    | none => color
  else color

/-- The loop over the pixels of a character, with the background where the character is black. -/
def tempColors (parentNode : Tag) (colors compareColors : List u.Color) :
    Option (List u.Color) :=
  colors.zipIdx.mapM fun (color, c) =>
    if u.same color u.black then compareColors[c]? else some (foreground parentNode color)

def drawCharacter (parentNode : Tag) (drawHeading : Bool) (c : FontCharacter u) :
    Draw u Unit := do
  let (s, placeX, placeY) := (← getScript).place drawHeading c
  setScript s
  if Contains placeX placeY then
    let compareColors ←
      orThrow .unity (u.getPixels s.backgroundTexture placeX placeY c.width c.height)
    let tempColors ← orThrow .outOfRange (tempColors parentNode c.colors compareColors)
    let texture ←
      orThrow .unity (u.setPixels s.texture placeX placeY c.width c.height tempColors)
    setScript { s with texture }
  modifyScript fun s => { s with cursor := { s.cursor with x := s.cursor.x + c.xadvance } }

/-- The loop of `ApplyToTexture` over the bytes of the text. -/
def drawBytes (parentNode : Tag) (drawHeading : Bool) : List UInt8 → Draw u Unit
  | [] => pure ()
  | byte :: bytes => do
    match ← fontCharacter (← getScript).fontCharacters byte with
    | some c => drawCharacter parentNode drawHeading c
    | none => pure ()
    drawBytes parentNode drawHeading bytes

def applyToTexture (parentNode : Tag) (drawHeading : Bool) (innerText : Text) : Draw u Unit := do
  modify fun w => { w with calls := w.calls ++ [⟨parentNode, drawHeading, innerText⟩] }
  drawBytes parentNode drawHeading innerText.getBytes

/-- What an element makes of `drawHeading`. -/
def Tag.drawHeading (tag : Tag) (drawHeading : Bool) : Bool :=
  let drawHeading := if tag.Name = text "heading" then true else drawHeading
  if tag.Name = text "block" then false else drawHeading

/-- A block begins on a new line. -/
def Tag.newLine (tag : Tag) : Draw u Unit :=
  if tag.Name = text "block" then ConsoleScript.newLine else pure ()

/-- `Recurse` of a node with its parent, or of none.  A text's siblings are not visited. -/
def recurse : XmlNode → Tag → Bool → Draw u Unit
  | .nil, _, _ => pure ()
  | .node tag firstChild nextSibling, parentNode, drawHeading => do
    tag.newLine
    recurse firstChild tag (tag.drawHeading drawHeading)
    recurse nextSibling parentNode (tag.drawHeading drawHeading)
  | .leaf value _, parentNode, drawHeading => applyToTexture parentNode drawHeading value

def loadTexture : Draw u Unit := do
  let s ← getScript
  let pixels ← orThrow .unity (u.getPixels s.backgroundTexture 0 0 windowWidth windowHeight)
  let texture ← orThrow .unity (u.setPixels s.texture 0 0 windowWidth windowHeight pixels)
  setScript { s with texture }

/-- `LoadConsole` of a text.  `loadXml` is what `XmlDocument.LoadXml` makes of it.  That the texture
is uploaded in the end is left out. -/
def loadConsole (loadXml : Text → Option DocumentElement) (xmlData : Text) : Draw u Unit := do
  loadTexture
  modifyScript fun s => { s with cursor := ⟨0, windowHeight⟩ }
  let root ← orThrow .xml (loadXml xmlData)
  recurse root.node document false

/-- The document that `LoadConsole` shows while the console has the focus. -/
def page (buffer : Text) : Text :=
  text "<console><heading><color name='green'>ESC</color> | edit</heading><block>" ++ buffer ++
    text "</block></console>"

/-- This document, with what the buffer makes of its block. -/
def pageRoot (content : XmlNode) : DocumentElement where
  tag := ⟨text "console", []⟩
  firstChild :=
    .node ⟨text "heading", []⟩
      (.node ⟨text "color", [(text "name", text "green")]⟩ (.leaf (text "ESC") .nil)
        (.leaf (text " | edit") .nil))
      (.node ⟨text "block", []⟩ content .nil)

/-- `LoadConsole` without a text. -/
def loadPage (loadXml : Text → Option DocumentElement) : Draw u Unit := do
  let s ← getScript
  loadConsole loadXml (if s.state then page s.buffer else text "<console></console>")

end Starfall.Unity.ConsoleScript
