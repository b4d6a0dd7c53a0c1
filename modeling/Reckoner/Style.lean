/-
Module: Reckoner.Style
Layer: Terminal
Purpose: Styles of printed text. A style is written as words: attributes, `not` before an attribute
  to take it back, a colour for the text, `on` before a colour for the background, and `link` before
  any word. Where words contradict one another the later one holds. A style has a definition, its
  words in a fixed order, by which styles are compared.
Main exports: Attribute, Style, Style.read, Style.ofText?, Style.definition
-/
import Reckoner.Color

namespace Reckoner

inductive Attribute where
  | bold
  | dim
  | italic
  | underline
  | blink
  | fastBlink
  | reverse
  | conceal
  | strike
  | doubleUnderline
  | frame
  | encircle
  | overline
deriving DecidableEq, Repr

namespace Attribute

/-- Every attribute, in the order in which terminals are told of them. -/
def all : List Attribute :=
  [bold, dim, italic, underline, blink, fastBlink, reverse, conceal, strike, doubleUnderline, frame,
   encircle, overline]

def word : Attribute → String
  | bold => "bold"
  | dim => "dim"
  | italic => "italic"
  | underline => "underline"
  | blink => "blink"
  | fastBlink => "blink2"
  | reverse => "reverse"
  | conceal => "conceal"
  | strike => "strike"
  | doubleUnderline => "underline2"
  | frame => "frame"
  | encircle => "encircle"
  | overline => "overline"

def abbreviations : List (String × Attribute) :=
  [("b", bold), ("d", dim), ("i", italic), ("u", underline), ("r", reverse), ("c", conceal),
   ("s", strike), ("uu", doubleUnderline), ("o", overline)]

def names : List (String × Attribute) :=
  (all.map fun trait => (trait.word, trait)) ++ abbreviations

def ofWord? (word : List Char) : Option Attribute :=
  names.lookup (String.ofList word)

end Attribute

/-- A style, with the text that it was read from. An attribute that the text does not mention is
    left as it is. -/
structure Style where
  source : String
  attributes : List (Attribute × Bool)
  foreground : Option Color
  background : Option Color
  link : Option String
deriving DecidableEq, Repr

namespace Style

inductive Fault where
  /-- A word means nothing, or lacks the word it applies to. -/
  | word
  /-- A part of a colour is no number. -/
  | number
deriving DecidableEq, Repr

/-- The style that changes nothing. -/
def neutral (source : String) : Style :=
  ⟨source, [], none, none, none⟩

def setAttribute (s : Style) (trait : Attribute) (isOn : Bool) : Style :=
  { s with attributes := (trait, isOn) :: s.attributes.filter fun entry => entry.1 != trait }

def shownAttributes (s : Style) : List Attribute :=
  Attribute.all.filter fun trait => s.attributes.lookup trait == some true

def colorOfWord (word : List Char) : Except Fault Color :=
  match Color.ofWord word with
  | .ok color => .ok color
  | .error .form => .error .word
  | .error .part => .error .number

/-- Adds the words of a style to what the words before them say. -/
def addWords (s : Style) : List (List Char) → Except Fault Style
  | [] => .ok s
  | word :: words =>
      let lower := Text.lower word
      if lower = "on".toList then
        match words with
        | [] => .error .word
        | color :: words =>
            match colorOfWord color with
            | .ok color => addWords { s with background := some color } words
            | .error fault => .error fault
      else if lower = "not".toList then
        match words with
        | [] => .error .word
        | trait :: words =>
            match Attribute.ofWord? trait with
            | some trait => addWords (s.setAttribute trait false) words
            | none => .error .word
      else if lower = "link".toList then
        match words with
        | [] => .error .word
        | target :: words => addWords { s with link := some (String.ofList target) } words
      else
        match Attribute.ofWord? lower with
        | some trait => addWords (s.setAttribute trait true) words
        | none =>
            match colorOfWord word with
            | .ok color => addWords { s with foreground := some color } words
            | .error fault => .error fault

/-- Reads a style. The word `none` on its own changes nothing, and neither does no word. -/
def read (text : String) : Except Fault Style :=
  match Text.words text.toList with
  | [['n', 'o', 'n', 'e']] => .ok (neutral text)
  | words => addWords (neutral text) words

def ofText? (text : String) : Option Style :=
  (read text).toOption

/-- The words that define a style: attributes, the colour of the text, the background, the link. -/
def definingWords (s : Style) : List String :=
  let wordsFor (trait : Attribute) : List String :=
    match s.attributes.lookup trait with
    | some true => [trait.word]
    | some false => ["not", trait.word]
    | none => []
  Attribute.all.flatMap wordsFor
    ++ (s.foreground.map Color.word).toList
    ++ (match s.background with
      | some color => ["on", color.word]
      | none => [])
    ++ (match s.link with
      | some target => ["link", target]
      | none => [])

def definition (s : Style) : String :=
  match s.definingWords with
  | [] => "none"
  | words => " ".intercalate words

end Style

end Reckoner
