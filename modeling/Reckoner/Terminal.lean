/-
Module: Reckoner.Terminal
Layer: Terminal
Purpose: Printing on a terminal, which is one kind of console. Names of pictographs are replaced, characters that would move the
  cursor are left out, and tabs become spaces. On a terminal that knows escape sequences every line
  that holds anything is wrapped in the codes of its style. Such a terminal has the sixteen standard
  colours, and every other colour is replaced by the one of these that looks most alike.
Main exports: Color.nearest, Style.codes, Terminal.expandTabs, Terminal.linesOf, Terminal,
  Terminal.paint, Terminal.render
-/
import Reckoner.Console
import Reckoner.Style
import Reckoner.Terminal.Cells
import Reckoner.Terminal.Emoji

namespace Reckoner

/-!
### Colours of the terminal
-/

namespace Color

/-- The red, green and blue of the sixteen standard colours. -/
def standardMixtures : List (Nat × Nat × Nat) :=
  [(0, 0, 0), (170, 0, 0), (0, 170, 0), (170, 85, 0), (0, 0, 170), (170, 0, 170), (0, 170, 170),
   (170, 170, 170), (85, 85, 85), (255, 85, 85), (85, 255, 85), (255, 255, 85), (85, 85, 255),
   (255, 85, 255), (85, 255, 255), (255, 255, 255)]

/-- The levels of red, green and blue in the colour cube of the palette. -/
def cubeLevel (step : Nat) : Nat :=
  if step = 0 then 0 else 55 + 40 * step

/-- The red, green and blue of a palette entry from 16 on: a cube of six levels, and then greys. -/
def mixtureOf (index : Nat) : Nat × Nat × Nat :=
  if index < 232 then
    let cell := index - 16
    (cubeLevel (cell / 36), cubeLevel (cell / 6 % 6), cubeLevel (cell % 6))
  else
    let grey := 8 + 10 * (index - 232)
    (grey, grey, grey)

/-- How different two mixtures look. Red weighs more the more red there is, and blue less. -/
def distance (a b : Nat × Nat × Nat) : Nat :=
  let (r1, g1, b1) := a
  let (r2, g2, b2) := b
  let square (x y : Nat) : Nat := (x - y + (y - x)) * (x - y + (y - x))
  let mean := (r1 + r2) / 2
  (512 + mean) * square r1 r2 / 256 + 4 * square g1 g2 + (767 - mean) * square b1 b2 / 256

/-- The standard colour that looks most like a mixture; of several, the first. -/
def nearest (mixture : Nat × Nat × Nat) : Nat :=
  let distances := standardMixtures.map (distance mixture)
  match distances.min? with
  | some least => distances.idxOf least
  | none => 0

/-- The number of a shade among the standard ones, or nothing for the terminal's own colour. -/
def Shade.standardIndex? : Shade → Option Nat
  | standard => none
  | palette index => some (if index < 16 then index else nearest (mixtureOf index))
  | mixture red green blue => some (nearest (red, green, blue))

/-- The code of a colour. The first eight follow `base`, and the bright ones stand 60 higher. -/
def code (base : Nat) (color : Color) : Nat :=
  match color.shade.standardIndex? with
  | none => base + 9
  | some index => if index < 8 then base + index else base + 52 + index

end Color

def Attribute.code : Attribute → Nat
  | bold => 1
  | dim => 2
  | italic => 3
  | underline => 4
  | blink => 5
  | fastBlink => 6
  | reverse => 7
  | conceal => 8
  | strike => 9
  | doubleUnderline => 21
  | frame => 51
  | encircle => 52
  | overline => 53

/-- The codes of a style: attributes, then the colour of the text, then that of the background. -/
def Style.codes (s : Style) : List Nat :=
  s.shownAttributes.map Attribute.code
    ++ (s.foreground.map (Color.code 30)).toList
    ++ (s.background.map (Color.code 40)).toList

/-!
### Text on the screen
-/

namespace Terminal

def tabWidth : Nat := 8

/-- What each character of a line is shown as: a tab as spaces up to the next stop, at least one,
    and any other character as itself. A tab is measured together with the text before it. -/
def expansions (line : List Char) : List (List Char) :=
  let parts := Text.pieces (· = '\t') line
  let step (state : Nat × List (List Char)) (part : List Char) : Nat × List (List Char) :=
    let (column, done) := state
    let reached := column + width (part ++ [' '])
    let filling := (tabWidth - reached % tabWidth) % tabWidth
    (reached + filling, List.replicate (filling + 1) ' ' :: (part.reverse.map ([·]) ++ done))
  (parts.dropLast.foldl step (0, [])).2.reverse ++ (parts.getLastD []).map ([·])

def expandTabs (line : List Char) : List Char :=
  (expansions line).flatten

/-- A control that acts on the terminal: bell, backspace, vertical tab, form feed, carriage
    return. -/
def isActing (c : Char) : Bool :=
  c.toNat = 7 || c.toNat = 8 || c.toNat = 11 || c.toNat = 12 || c.toNat = 13

/-- A text without acting controls. -/
def withoutActing (text : List Char) : List Char :=
  text.filter fun c => !isActing c

/-- The lines of a text as they are shown, with spaces for tabs. -/
def linesOf (text : List Char) : List (List Char) :=
  (Text.pieces (· = '\n') text).map expandTabs

end Terminal

/-- What is known of a terminal: whether it takes escape sequences, the cells in one line, the names
    of pictographs, and which parameters a handler can be given. -/
structure Terminal where
  takesCodes : Bool
  columns : Nat := 80
  pictographs : Emoji.Names := fun _ => none
  acceptsHandler : List Char → Bool := fun _ => true

namespace Terminal

/-- A line between the codes of a style and the code that ends it. A line without characters and a
    style without codes leave the line as it is. -/
def paint (codes : List Nat) (line : List Char) : List Char :=
  if line.isEmpty || codes.isEmpty then line
  else
    "\x1b[".toList ++ (";".intercalate (codes.map toString)).toList ++ ['m'] ++ line
      ++ "\x1b[0m".toList

/-- The codes with which a terminal shows a style. -/
def codesOf (terminal : Terminal) (style : Option String) : List Nat :=
  match style.bind Style.ofText? with
  | some s => if terminal.takesCodes then s.codes else []
  | none => []

/-- What is sent to a terminal to print a text, including the line end behind it. -/
def render (terminal : Terminal) (p : Print) : String :=
  let lines := linesOf (withoutActing (Emoji.replace terminal.pictographs p.text.toList))
  let painted := lines.map (paint (terminal.codesOf p.style))
  String.ofList (List.intercalate ['\n'] painted) ++ "\n"

end Terminal

end Reckoner
