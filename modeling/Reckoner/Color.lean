/-
Module: Reckoner.Color
Layer: Terminal
Purpose: Colours. A colour is written as one word: a name, `#` and six digits of base sixteen,
  `color(n)` for an entry of the palette of 256 colours, or `rgb(r,g,b)`. Two words may show the
  same colour; a colour keeps the word it was written with.
Main exports: Color, Color.Shade, Color.Fault, Color.ofWord
-/
import Reckoner.Color.Names
import Reckoner.Numeral
import Reckoner.Text.Hex
import Reckoner.Text.Lower

namespace Reckoner

/-- What a colour shows: what the terminal uses by itself, an entry of the palette, or a mixture of
    red, green and blue. The first sixteen entries of the palette are the terminal's own colours. -/
inductive Color.Shade where
  | standard
  | palette (index : Nat)
  | mixture (red green blue : Nat)
deriving DecidableEq, Repr

structure Color where
  word : String
  shade : Color.Shade
deriving DecidableEq, Repr

namespace Color

inductive Fault where
  /-- It is none of the forms of a colour. -/
  | form
  /-- It is a mixture, and a part of it is no number. -/
  | part
deriving DecidableEq, Repr

/-- The number that two digits of base sixteen denote. -/
def hexPair? (high low : Char) : Option Nat :=
  Text.hexNumber? [high, low]

/-- The number that a run of decimal digits of any writing system denotes. A run that is empty or
    too long denotes none. -/
def component? (run : List Char) : Option Nat :=
  if run.isEmpty || Numeral.digitLimit < run.length then none
  else (run.mapM Text.decimalValue?).map Numeral.valueOf

/-- What stands between a word such as `rgb(` at the front of a text and a parenthesis at its
    end. -/
def argument? (head : String) (text : List Char) : Option (List Char) :=
  if head.toList.isPrefixOf text && text.getLast? == some ')' then
    some (text.drop head.length).dropLast
  else
    none

/-- The palette entry of a number of one to three ASCII digits. -/
def ofIndex? (run : List Char) : Option Shade :=
  if run.all Char.isDigit && run.length ≤ 3 then
    match component? run with
    | some index => if index ≤ 255 then some (.palette index) else none
    | none => none
  else
    none

/-- The mixture of three numbers up to 255 with commas between them. -/
def ofMixture (text : List Char) : Except Fault Shade :=
  if text.isEmpty || !text.all fun c => Text.isDecimal c || c = ',' then .error .form
  else
    match Text.pieces (· = ',') text with
    | [red, green, blue] =>
        match component? red, component? green, component? blue with
        | some red, some green, some blue =>
            if red ≤ 255 && green ≤ 255 && blue ≤ 255 then .ok (.mixture red green blue)
            else .error .form
        | _, _, _ => .error .part
    | _ => .error .form

/-- The shade of a word in lower case that is no name. -/
def shadeOfForm (word : List Char) : Except Fault Shade :=
  match word with
  | ['#', r1, r0, g1, g0, b1, b0] =>
      match hexPair? r1 r0, hexPair? g1 g0, hexPair? b1 b0 with
      | some red, some green, some blue => .ok (.mixture red green blue)
      | _, _, _ => .error .form
  | _ =>
      match argument? "color(" word, argument? "rgb(" word with
      | some run, _ => ((ofIndex? run).map .ok).getD (.error .form)
      | _, some text => ofMixture text
      | _, _ => .error .form

def shadeOf (word : List Char) : Except Fault Shade :=
  if word = "default".toList then .ok .standard
  else
    match paletteNames.lookup (String.ofList word) with
    | some index => .ok (.palette index)
    | none => shadeOfForm word

/-- The colour of a word, in lower or upper case. -/
def ofWord (word : List Char) : Except Fault Color :=
  (shadeOf (Text.lower word)).map fun shade => ⟨String.ofList (Text.lower word), shade⟩

end Color

end Reckoner
