/-
Module: Reckoner.Terminal.Markup
Layer: Terminal
Purpose: Markup in prompts. A tag in brackets opens a style or a handler, and a tag that starts with
  a slash closes the one it names, or the last one if it names none; tags are not shown. A backslash
  before a tag takes its meaning away. A closing tag for which no tag is open makes the markup
  wrong, and so does a handler whose parameters the terminal does not accept.
Main exports: Markup.Piece, Markup.pieces, Markup.Tag, Markup.Span, Markup.Content, Markup.read,
  Markup.Content.lines, Terminal.ask, Terminal.console
-/
import Reckoner.Terminal
import Reckoner.Terminal.Wrap

namespace Reckoner

namespace Markup

open Console (Fault)

/-!
### Pieces
-/

/-- A piece of a text with markup: what is shown, or a tag without its brackets. -/
inductive Piece where
  | shown (text : List Char)
  | tag (body : List Char)
deriving DecidableEq, Repr

def startsTag (c : Char) : Bool :=
  c.isLower || c = '#' || c = '/' || c = '@'

/-- The tag behind an opening bracket, and the text behind the tag. -/
def tag? : List Char → Option (List Char × List Char)
  | [] => none
  | c :: text =>
      if startsTag c then
        match text.dropWhile fun d => d != ']' && d != '[' with
        | ']' :: rest => some (c :: text.takeWhile fun d => d != ']' && d != '[', rest)
        | _ => none
      else none

/-- The text behind a tag is shorter than the text it stands in. -/
theorem length_of_tag? {text body rest : List Char} (h : tag? text = some (body, rest)) :
    rest.length < text.length := by
  cases text with
  | nil => cases h
  | cons c text =>
      rw [tag?] at h
      split at h
      · split at h
        · rename_i tail hdrop
          cases h
          have := (List.dropWhile_sublist (l := text) fun d => d != ']' && d != '[').length_le
          rw [hdrop] at this
          simp only [List.length_cons] at this ⊢
          omega
        · cases h
      · cases h

/-- The pieces of a text behind a shown text, which is given backwards, and `slashes` backslashes.
    Before a tag two of them show one, and one that is left over makes the tag a piece of shown
    text; before any other bracket one is dropped. -/
def piecesBehind (plain : List Char) (slashes : Nat) (text : List Char) : List Piece :=
  match text with
  | [] => [.shown (plain.reverse ++ List.replicate slashes '\\')]
  | '\\' :: rest => piecesBehind plain (slashes + 1) rest
  | '[' :: rest =>
      match h : tag? rest with
      | some (body, behind) =>
          have := length_of_tag? h
          let piece := if slashes % 2 = 1 then .shown ('[' :: (body ++ [']'])) else .tag body
          .shown plain.reverse :: .shown (List.replicate (slashes / 2) '\\') :: piece
            :: piecesBehind [] 0 behind
      | none => piecesBehind ('[' :: (List.replicate (slashes - 1) '\\' ++ plain)) 0 rest
  | c :: rest => piecesBehind (c :: (List.replicate slashes '\\' ++ plain)) 0 rest
termination_by text.length
decreasing_by all_goals (simp only [List.length_cons]; omega)

def pieces (text : List Char) : List Piece :=
  piecesBehind [] 0 text

def Piece.shownText (terminal : Terminal) : Piece → List Char
  | .shown text => Terminal.withoutActing (Emoji.replace terminal.pictographs text)
  | .tag _ => []

/-!
### Tags
-/

/-- An opening tag: the name of a style or of a kind of handler, and what is behind an equals
    sign. -/
structure Tag where
  name : String
  parameters : Option (List Char)
deriving DecidableEq, Repr

/-- The name that the words of a tag stand for: the definition of the style that they describe, or
    else the words in lower case. -/
def nameOf (words : List Char) : Except Fault String :=
  match Style.read (String.ofList words) with
  | .ok s => .ok s.definition
  | .error .word => .ok (String.ofList (Text.lower (Text.trim Text.isBlank words)))
  | .error .number => .error .number

def Tag.ofBody (body : List Char) : Except Fault Tag :=
  (nameOf (body.takeWhile (· != '='))).map fun name =>
    match body.dropWhile (· != '=') with
    | _ :: parameters => ⟨name, some parameters⟩
    | [] => ⟨name, none⟩

/-- Whether a tag opens a handler and no style. -/
def Tag.isHandler (tag : Tag) : Bool :=
  tag.name.toList.head? == some '@'

/-- Closing a handler makes sense of its parameters, if it has any. -/
def Tag.close (terminal : Terminal) (tag : Tag) : Except Fault Unit :=
  match tag.parameters with
  | none | some [] => .ok ()
  | some parameters =>
      if !tag.isHandler || terminal.acceptsHandler (Text.trim Text.isBlank parameters) then .ok ()
      else .error .markup

/-- The definition of the style that a tag is shown in: its name, and its parameters as further
    words. -/
def Tag.definition (tag : Tag) : String :=
  match tag.parameters with
  | some parameters => tag.name ++ " " ++ String.ofList parameters
  | none => tag.name

/-!
### Spans
-/

/-- What a tag applies to: the shown characters from one position up to another. -/
structure Span where
  start : Nat
  stop : Nat
  tag : Tag
deriving DecidableEq, Repr

/-- A tag that is open, and the position that it was opened at. -/
structure Opened where
  tag : Tag
  start : Nat
deriving DecidableEq, Repr

/-- The last opened of several tags, the latest first, that has a name, and the others. -/
def takeNamed? (name : String) (opened : List Opened) : Option (Opened × List Opened) :=
  match opened.find? (·.tag.name == name) with
  | some found => some (found, opened.eraseP (·.tag.name == name))
  | none => none

/-- The tag that is closed by a name, or by no name, and the tags that are left open. -/
def closedBy (words : List Char) (opened : List Opened) : Except Fault (Opened × List Opened) :=
  if words.isEmpty then
    match opened with
    | [] => .error .markup
    | last :: others => .ok (last, others)
  else
    match nameOf words with
    | .error fault => .error fault
    | .ok name =>
        match takeNamed? name opened with
        | some found => .ok found
        | none => .error .markup

/-- The spans of the tags of pieces, while some tags are open, the latest first, and a number of
    characters have been shown. Tags that are not closed apply up to the end. -/
def spansFrom (terminal : Terminal) (opened : List Opened) (position : Nat) :
    List Piece → Except Fault (List Span)
  | [] => .ok (opened.map fun last => ⟨last.start, position, last.tag⟩)
  | .shown text :: others =>
      let gained := ((Piece.shown text).shownText terminal).length
      spansFrom terminal opened (position + gained) others
  | .tag ('/' :: words) :: others =>
      match closedBy (Text.trim Text.isBlank (words.takeWhile (· != '='))) opened with
      | .error fault => .error fault
      | .ok (last, opened) =>
          match last.tag.close terminal with
          | .error fault => .error fault
          | .ok () =>
              (spansFrom terminal opened position others).map
                (⟨last.start, position, last.tag⟩ :: ·)
  | .tag body :: others =>
      match Tag.ofBody body with
      | .error fault => .error fault
      | .ok tag => spansFrom terminal (⟨tag, position⟩ :: opened) position others

structure Content where
  text : List Char
  spans : List Span
deriving DecidableEq, Repr

def read (terminal : Terminal) (text : List Char) : Except Fault Content :=
  let found := pieces text
  (spansFrom terminal [] 0 found).map fun spans =>
    ⟨found.flatMap (Piece.shownText terminal), spans⟩

/-!
### Showing
-/

/-- Whether a text is shown without being divided, so that spans of no character are kept: it has
    no line end and no tab, and is not broken. -/
def isUndivided (columns position : Nat) (text : List Char) : Bool :=
  match Terminal.wrap columns text with
  | [line] =>
      !text.contains '\n' && !text.contains '\t'
        && (line.length == text.length || position < line.length)
  | _ => false

/-- Which characters of a line without tabs are shown, after it has been broken. -/
def shownInLine (columns : Nat) (line : List Char) : List Bool :=
  (Terminal.brokenLines columns line).flatMap fun broken =>
    let kept := (Terminal.fit columns broken).length
    List.replicate kept true ++ List.replicate (broken.length - kept) false

/-- Whether anything is shown of each of several texts that make up a line. -/
def shownParts (shown : List Bool) : List (List Char) → List Bool
  | [] => []
  | part :: others =>
      (shown.take part.length).any id :: shownParts (shown.drop part.length) others

/-- Which characters of a text are shown. Line ends are not. -/
def shownCharacters (columns : Nat) (text : List Char) : List Bool :=
  let ofLine (line : List Char) : List Bool :=
    shownParts (shownInLine columns (Terminal.expandTabs line)) (Terminal.expansions line)
  List.intercalate [false] ((Text.pieces (· = '\n') text).map ofLine)

/-- Whether a span has a style to be shown in: it has a character that is shown, or it has none in a
    text that is not divided. -/
def Span.isShown (columns : Nat) (text : List Char) (span : Span) : Bool :=
  let covered := ((shownCharacters columns text).drop span.start).take (span.stop - span.start)
  covered.any id || covered.isEmpty && isUndivided columns span.start text

/-- The lines in which a terminal of a number of columns shows a content. A style that means nothing
    is not shown, but the parts of a colour have to be numbers. -/
def Content.lines (columns : Nat) (content : Content) : Except Fault (List (List Char)) :=
  let isFaulty (span : Span) : Bool :=
    match Style.read span.tag.definition with
    | .error .number => span.isShown columns content.text
    | _ => false
  if content.spans.any isFaulty then .error .number
  else .ok ((Terminal.linesOf content.text).flatMap (Terminal.wrap columns))

end Markup

namespace Terminal

/-- A prompt as it is printed: without its markup, broken into the lines of the terminal, and
    without a line end behind it. -/
def ask (terminal : Terminal) (prompt : String) : Except Console.Fault String := do
  let content ← Markup.read terminal prompt.toList
  let lines ← content.lines terminal.columns
  pure (String.ofList (List.intercalate ['\n'] lines))

def console (terminal : Terminal) : Console :=
  ⟨terminal.render, terminal.ask⟩

end Terminal

end Reckoner
