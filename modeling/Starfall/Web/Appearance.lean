import Starfall.Web.Html
import Starfall.Web.Values

/-! `components.appearance.js` and the template of a part in `index.html`: what the page shows of
the appearance of an entity. -/

namespace Starfall.Components

open ProofKit.Transducers

variable {N : Type} (num : Numbers N)

/-- A color of a part, the `j`th of it. -/
structure Color (N : Type) where
  j : Nat
  red : Option (Value N)
  green : Option (Value N)
  blue : Option (Value N)

/-- A part of the default style, the `i`th of it. -/
structure Part (N : Type) where
  i : Nat
  name : Option (Value N)
  colors : List (Color N)

/-- The colors of the style whose number is that of a material of the part. -/
def colors (style part : Option (Value N)) : Option (List (Color N)) := do
  let pairs ← (← eachObject num part).flatMapM fun material => do
    some ((← eachObject num style).map fun styleColor => (material, styleColor))
  let matched ← pairs.filterM fun (material, styleColor) => do
    looselyEqual num (← get styleColor "number".toList) (← get material "color".toList)
  matched.zipIdx.mapM fun ((_, styleColor), j) => do
    some { j
           red := ← get styleColor "red".toList
           green := ← get styleColor "green".toList
           blue := ← get styleColor "blue".toList }

/-- The parts of the meshes of the slots. -/
def partsOf (slots : Option (Value N)) : Option (List (Option (Value N))) := do
  let meshes ← (← eachObject num slots).flatMapM (eachObject num)
  meshes.flatMapM (eachObject num)

/-- The constructor of `Model`. -/
def model (appearance : Value N) : Option (List (Part N)) := do
  let styles ← get (some appearance) "styles".toList
  let parts ← (← eachObject num styles).mapM fun style => do
    if ← looselyEqual num (← get style "name".toList) (some (.string "default".toList)) then
      let slots ← get (some appearance) "slots".toList
      (← partsOf num slots).zipIdx.mapM fun (part, i) => do
        some { i, name := ← get part "name".toList, colors := ← colors num style part }
    else some []
  some parts.flatten

/-- A component of a color in hexadecimal, which is 0 unless it parses as an integer. -/
def component (value : Option (Value N)) : Option Str := do
  let s ← value.elim (some "undefined".toList) (Value.toText num)
  let hex := num.hexadecimal (num.ofInt ((parseInt s).getD 0))
  some (if hex.length = 1 then '0' :: hex else hex)

def Color.toHex (color : Color N) : Option Str := do
  let red ← component num color.red
  let green ← component num color.green
  let blue ← component num color.blue
  some ('#' :: red ++ green ++ blue)

/-- What `<%= value %>` puts into a template. -/
def interpolate : Option (Value N) → Option Str
  | none | some .null => some []
  | some value => value.toText num

def Part.li (baseID : Str) (part : Part N) : Str := baseID ++ "_part_".toList ++ decimal part.i

def Color.anchor (li : Str) (color : Color N) : Str := li ++ "_color_".toList ++ decimal color.j

inductive PartHole
  | partName
  | toggle
  deriving DecidableEq, Repr

inductive ColorHole
  | popup
  | anchor
  | hex
  | sliderRed
  | red
  | sliderGreen
  | green
  | sliderBlue
  | apply
  | revert
  deriving DecidableEq, Repr

/-- `template-object-part`, as far as its colors. -/
def partTemplate : List (Piece PartHole Char) :=
  [ .text "\n   <li>\n     <table width='100%'>\n            <tr>".toList,
    .text "\n                <td width='50%'>\n                    ".toList,
    .hole .partName,
    .text "\n                </td>\n                <td align='right'>".toList,
    .text "\n                    <p style='float:right; margin-left: 10px'>".toList,
    .text "\n                        <select id='".toList,
    .hole .toggle,
    .text "' data-role='slider' data-track-theme='a' data-theme='a' data-mini='true' >".toList,
    .text "\n                          <option value='off'>Off</option>".toList,
    .text "\n                          <option value='on'>On</option>".toList,
    .text "\n                        </select>\n                    </p>".toList,
    .text "\n                    ".toList ]

/-- `template-object-part`, what stands there once for each color. -/
def colorTemplate : List (Piece ColorHole Char) :=
  [ .text "\n".toList,
    .text "\n                       <a data-position-to='window' data-rel='popup' href='#".toList,
    .hole .popup,
    .text "' id='".toList,
    .hole .anchor,
    .text "' style='float:right; margin-right: 3px; margin-top: 2px; width: 25px; ".toList,
    .text "height: 25px; border: 1px solid black; background-color:".toList,
    .hole .hex,
    .text "'>\n                         <div style='width:250px' data-role='popup' id='".toList,
    .hole .popup,
    .text "'>\n                             <table width='100%'>".toList,
    .text "\n                               <tr>".toList,
    .text "\n                                 <td align='center'>".toList,
    .text "\n                                      <h3>Red</h3>".toList,
    .text "\n                                 </td>".toList,
    .text "\n                                 <td>".toList,
    .text "\n                                      <input type='range' name='".toList,
    .hole .sliderRed,
    .text "' id='".toList,
    .hole .sliderRed,
    .text "' value='".toList,
    .hole .red,
    .text "' min='0' max='255' />\n                                  </td>".toList,
    .text "\n                               </tr>\n                               <tr>".toList,
    .text "\n                                 <td align='center'>".toList,
    .text "\n                                      <h3>Green</h3>".toList,
    .text "\n                                 </td>".toList,
    .text "\n                                 <td>".toList,
    .text "\n                                      <input type='range' name='".toList,
    .hole .sliderGreen,
    .text "' id='".toList,
    .hole .sliderGreen,
    .text "' value='".toList,
    .hole .green,
    .text "' min='0' max='255' />\n                                 </td>".toList,
    .text "\n                               </tr>\n                               <tr>".toList,
    .text "\n                                 <td align='center'>".toList,
    .text "\n                                      <h3>Blue</h3>".toList,
    .text "\n                                 </td>".toList,
    .text "\n                                 <td>".toList,
    .text "\n                                      <input type='range' name='".toList,
    .hole .sliderBlue,
    .text "' id='".toList,
    .hole .sliderBlue,
    .text "' value='".toList,
    .hole .green,
    .text "' min='0' max='255' />\n                                 </td>".toList,
    .text "\n                               </tr>\n                             </table>".toList,
    .text "\n                             <table width='100%'>".toList,
    .text "\n                                 <tr>".toList,
    .text "\n                                     <td>".toList,
    .text "\n                                         <div data-role='controlgroup' ".toList,
    .text "data-type='horizontal'>".toList,
    .text "\n                                            <a href='#' id='".toList,
    .hole .apply,
    .text "' data-role='button' data-mini='true'>Apply</a>".toList,
    .text "\n                                            <a href='#' id='".toList,
    .hole .revert,
    .text "' data-role='button' data-mini='true'>Revert</a>".toList,
    .text "\n                                          </div>".toList,
    .text "\n                                     </td>".toList,
    .text "\n                                 </tr>".toList,
    .text "\n                              </table>\n                         </div>".toList,
    .text "\n                      </a>\n\n                    ".toList ]

/-- `template-object-part`, behind its colors. -/
def partEnd : Str :=
  "\n\n                </td>\n            </tr>\n        </table>\n    </li>\n".toList

/-- What stands in the holes for a color, of which the markup shows two components. -/
def Color.fillings (li hex red green : Str) (color : Color N) : ColorHole → Str
  | .popup => color.anchor li ++ "_popup".toList
  | .anchor => color.anchor li
  | .hex => hex
  | .sliderRed => color.anchor li ++ "_popup_input_red".toList
  | .red => red
  | .sliderGreen => color.anchor li ++ "_popup_input_green".toList
  | .green => green
  | .sliderBlue => color.anchor li ++ "_popup_input_blue".toList
  | .apply => color.anchor li ++ "_popup_button_apply".toList
  | .revert => color.anchor li ++ "_popup_button_revert".toList

def Color.render (li : Str) (color : Color N) : Option Str := do
  let hex ← color.toHex num
  let red ← interpolate num color.red
  let green ← interpolate num color.green
  some (Piece.fill (color.fillings li hex red green) colorTemplate)

def Part.fillings (name li : Str) : PartHole → Str
  | .partName => name
  | .toggle => li ++ "_toggle".toList

def Part.render (baseID : Str) (part : Part N) : Option Str := do
  let name ← interpolate num part.name
  let colors ← part.colors.mapM (Color.render num (part.li baseID))
  some (Piece.fill (Part.fillings name (part.li baseID)) partTemplate ++ colors.flatten ++ partEnd)

/-- `view.all()` of the component that `create(baseID, obj)` returns. -/
def view (baseID : Str) (obj : Value N) : Option Str := do
  let parts ← model num obj
  let rendered ← parts.mapM (Part.render num baseID)
  some rendered.flatten

end Starfall.Components
