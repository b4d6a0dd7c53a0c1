/-
Module: Reckoner.Text.Quoted
Layer: Text
Purpose: Quoted texts, as lists of messages show them. A text stands between single quotes, or
  between double quotes if it holds a single quote and no double quote; the quote in use and the
  backslash are escaped, and so is every character that does not show on a page.
Main exports: Text.quoted, Text.quotedList
-/
import Reckoner.Text.Hex
import Reckoner.Text.Hidden

namespace Reckoner.Text

/-- A character between quotes of the kind `quote`. -/
def escaped (quote c : Char) : List Char :=
  if c = quote || c = '\\' then ['\\', c]
  else if c = '\n' then ['\\', 'n']
  else if c = '\t' then ['\\', 't']
  else if c = '\r' then ['\\', 'r']
  else if isHidden c then
    if c.toNat < 0x100 then '\\' :: 'x' :: hexText 2 c.toNat
    else if c.toNat < 0x10000 then '\\' :: 'u' :: hexText 4 c.toNat
    else '\\' :: 'U' :: hexText 8 c.toNat
  else [c]

def quoteFor (text : List Char) : Char :=
  if text.contains '\'' && !text.contains '"' then '"' else '\''

def quoted (text : String) : String :=
  let characters := text.toList
  let quote := quoteFor characters
  String.ofList (quote :: (characters.flatMap (escaped quote) ++ [quote]))

/-- Quoted texts between brackets, with a comma and a space between two of them. -/
def quotedList (texts : List String) : String :=
  "[" ++ ", ".intercalate (texts.map quoted) ++ "]"

end Reckoner.Text
