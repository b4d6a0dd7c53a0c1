/-
Module: Reckoner.Toml.Quotation
Layer: Toml
Purpose: The four forms of strings: basic strings, in which a backslash starts an escape, literal
  strings, in which nothing does, and both of them over several lines. Each reader is given the text
  behind the opening quotes.
Main exports: Toml.basicString, Toml.literalString, Toml.basicLines, Toml.literalLines
-/
import Reckoner.Text.Hex
import Reckoner.Toml.Reading

namespace Reckoner.Toml

def escapedChar? : Char → Option Char
  | 'b' => some '\x08'
  | 't' => some '\t'
  | 'n' => some '\n'
  | 'f' => some '\x0c'
  | 'r' => some '\r'
  | '"' => some '"'
  | '\\' => some '\\'
  | _ => none

/-- Puts a character in front of the string that is read from the text behind it. -/
def prepend (c : Option Char) (tail : Reading (List Char)) : Reading (List Char) :=
  match c with
  | some c => tail.map (c :: ·)
  | none => .error .malformed

def basicString : List Char → Reading (List Char)
  | '"' :: text => .ok ([], text)
  | '\\' :: 'u' :: a :: b :: c :: d :: text =>
      prepend (Text.charOfHex? [a, b, c, d]) (basicString text)
  | '\\' :: 'U' :: a :: b :: c :: d :: e :: f :: g :: h :: text =>
      prepend (Text.charOfHex? [a, b, c, d, e, f, g, h]) (basicString text)
  | '\\' :: c :: text => prepend (escapedChar? c) (basicString text)
  | c :: text => if isControl c then .error .malformed else prepend (some c) (basicString text)
  | [] => .error .malformed

/-- The quotes that belong to a string over several lines although they stand behind its closing
    quotes: at most two. -/
def extraQuotes (quote : Char) : List Char → List Char × List Char
  | a :: b :: text =>
      if a = quote then
        if b = quote then ([quote, quote], text) else ([quote], b :: text)
      else ([], a :: b :: text)
  | [a] => if a = quote then ([quote], []) else ([], [a])
  | [] => ([], [])

/-- What follows a backslash at the end of a line: the rest of that line has to be blank, and
    everything up to the next visible character is skipped. -/
def foldedLine (c : Char) (text : List Char) : Except Fault (List Char) :=
  if c = '\n' then .ok (text.dropWhile isLayoutOrNewline)
  else
    match skipLayout text with
    | [] => .ok []
    | d :: rest =>
        if d = '\n' then .ok (rest.dropWhile isLayoutOrNewline) else .error .malformed

theorem length_foldedLine_le {c : Char} {text rest : List Char} (h : foldedLine c text = .ok rest) :
    rest.length ≤ text.length := by
  unfold foldedLine at h
  split at h
  · cases h
    exact (List.dropWhile_sublist _).length_le
  · split at h
    · cases h
      exact Nat.zero_le _
    · rename_i d tail hskip
      split at h
      · cases h
        have htail : (d :: tail).length ≤ text.length := by
          rw [← hskip]
          exact (List.dropWhile_sublist _).length_le
        have := (List.dropWhile_sublist (l := tail) isLayoutOrNewline).length_le
        simp only [List.length_cons] at htail
        omega
      · cases h

def basicLines : List Char → Reading (List Char)
  | '"' :: '"' :: '"' :: text => .ok (extraQuotes '"' text)
  | '\\' :: 'u' :: a :: b :: c :: d :: text =>
      prepend (Text.charOfHex? [a, b, c, d]) (basicLines text)
  | '\\' :: 'U' :: a :: b :: c :: d :: e :: f :: g :: h :: text =>
      prepend (Text.charOfHex? [a, b, c, d, e, f, g, h]) (basicLines text)
  | '\\' :: c :: text =>
      if isLayoutOrNewline c then
        match hfold : foldedLine c text with
        | .ok rest =>
            have := length_foldedLine_le hfold
            basicLines rest
        | .error fault => .error fault
      else
        prepend (escapedChar? c) (basicLines text)
  | c :: text =>
      if isControl c && c != '\n' then .error .malformed else prepend (some c) (basicLines text)
  | [] => .error .malformed
termination_by text => text.length
decreasing_by all_goals (simp only [List.length_cons]; omega)

def literalString : List Char → Reading (List Char)
  | '\'' :: text => .ok ([], text)
  | c :: text => if isControl c then .error .malformed else prepend (some c) (literalString text)
  | [] => .error .malformed

/-- Reads a literal string over several lines. -/
def literalLines : List Char → Reading (List Char)
  | '\'' :: '\'' :: '\'' :: text => .ok (extraQuotes '\'' text)
  | c :: text =>
      if isControl c && c != '\n' then .error .malformed else prepend (some c) (literalLines text)
  | [] => .error .malformed

/-- The text without the line end that may follow the opening quotes of a string over several
    lines. -/
def dropFirstNewline : List Char → List Char
  | '\n' :: text => text
  | text => text

end Reckoner.Toml
