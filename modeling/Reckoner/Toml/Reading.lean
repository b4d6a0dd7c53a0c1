/-
Module: Reckoner.Toml.Reading
Layer: Toml
Purpose: What readers of TOML text have in common: the outcome of reading from the front of a text,
  the two ways in which a document is refused, and the characters that layout and comments consist
  of.
Main exports: Toml.Fault, Toml.Reading, Toml.skipLayout, Toml.skipComment, Toml.skipLines
-/

namespace Reckoner.Toml

inductive Fault where
  /-- The text is no TOML document. -/
  | malformed
  /-- A decimal integer has more digits than are read. -/
  | numeralTooLong
deriving DecidableEq, Repr

/-- The outcome of reading from the front of a text: what was read and the text behind it. -/
abbrev Reading (α : Type) : Type := Except Fault (α × List Char)

def Reading.map {α β : Type} (f : α → β) : Reading α → Reading β
  | .ok (a, rest) => .ok (f a, rest)
  | .error fault => .error fault

def isLayout (c : Char) : Bool :=
  c = ' ' || c = '\t'

def isLayoutOrNewline (c : Char) : Bool :=
  isLayout c || c = '\n'

/-- A control character other than the tab. It may stand nowhere in a document, except that line
    ends separate lines. -/
def isControl (c : Char) : Bool :=
  (c.toNat < 32 && c != '\t') || c.toNat = 127

/-- The text without the spaces and tabs at its front. -/
def skipLayout (text : List Char) : List Char :=
  text.dropWhile isLayout

/-- The text without the comment at its front. The line end behind the comment stays. -/
def skipComment : List Char → Except Fault (List Char)
  | '#' :: text =>
      if (text.takeWhile (· != '\n')).any isControl then .error .malformed
      else .ok (text.dropWhile (· != '\n'))
  | text => .ok text

/-- The text without the spaces, tabs, line ends and comments at its front. `inComment` says that
    the text starts inside a comment. -/
def skipLines (inComment : Bool) : List Char → Except Fault (List Char)
  | [] => .ok []
  | c :: text =>
      if c = '\n' then skipLines false text
      else if inComment then
        if isControl c then .error .malformed else skipLines true text
      else if isLayout c then skipLines false text
      else if c = '#' then skipLines true text
      else .ok (c :: text)

/-- The text with a line feed for every carriage return that stands before one. -/
def unifyNewlines : List Char → List Char
  | '\r' :: '\n' :: text => '\n' :: unifyNewlines text
  | c :: text => c :: unifyNewlines text
  | [] => []

end Reckoner.Toml
