/-
Module: Reckoner.Terminal.Emoji
Layer: Terminal
Purpose: Pictographs in printed text. The name of a pictograph between two colons is replaced by the
  pictograph, and a name with `-text` or `-emoji` behind it by the pictograph in that presentation.
  What no pictograph is called is left as it is. Which names there are is up to the terminal.
Main exports: Emoji.Names, Emoji.replace
-/
import Reckoner.Text.Class
import Reckoner.Text.Lower

namespace Reckoner.Emoji

/-- What a name stands for: the characters that draw the pictograph of the name in lower case. -/
abbrev Names : Type := List Char → Option (List Char)

/-- The presentations that may be asked for behind a name, and the characters that select them. -/
def presentations : List (String × Char) :=
  [("-text", '\ufe0e'), ("-emoji", '\ufe0f')]

/-- A name without the presentation that is asked for, and the character that selects it. -/
def splitPresentation (name : List Char) : List Char × List Char :=
  match presentations.find? fun option => option.1.toList.isSuffixOf name with
  | some (ending, selector) => (name.take (name.length - ending.length), [selector])
  | none => (name, [])

def shown (names : Names) (name : List Char) : List Char :=
  let (plain, selector) := splitPresentation name
  match names (Text.lower plain) with
  | some symbol => symbol ++ selector
  | none => ':' :: (name ++ [':'])

/-- A text in which names are being replaced: what is done, backwards, and the characters behind a
    colon that may start a name, backwards as well. -/
structure Progress where
  done : List Char
  name : Option (List Char)
deriving DecidableEq, Repr

def Progress.close (p : Progress) : List Char :=
  match p.name with
  | some name => name ++ (':' :: p.done)
  | none => p.done

/-- Adds a character. A name ends with a colon, and there is none if a blank comes before that. -/
def Progress.add (names : Names) (p : Progress) (c : Char) : Progress :=
  match p.name with
  | none => if c = ':' then { p with name := some [] } else { p with done := c :: p.done }
  | some name =>
      if c = ':' then ⟨(shown names name.reverse).reverse ++ p.done, none⟩
      else if Text.isBlank c then ⟨c :: p.close, none⟩
      else { p with name := some (c :: name) }

/-- A text in which the names of pictographs are replaced by the pictographs. -/
def replace (names : Names) (text : List Char) : List Char :=
  (text.foldl (Progress.add names) ⟨[], none⟩).close.reverse

end Reckoner.Emoji
