/-
Module: Reckoner.Toml.Document
Layer: Toml
Purpose: Reading whole TOML documents: keys, values and statements. Values nest, so their readers
  carry fuel; each step of theirs that uses up fuel twice has consumed a character in between, so
  twice the length of the text is always enough, and the readers that hand out fuel do that.
Main exports: Toml.key, Toml.value, Toml.statement, Toml.read
-/
import Reckoner.Toml.Scalar
import Reckoner.Toml.Table

namespace Reckoner.Toml

/-!
### Keys
-/

def isBare (c : Char) : Bool :=
  c.isAlphanum || c = '-' || c = '_'

def keyPart : List Char → Reading String
  | '"' :: text => (basicString text).map String.ofList
  | '\'' :: text => (literalString text).map String.ofList
  | text =>
      let part := text.takeWhile isBare
      if part.isEmpty then .error .malformed
      else .ok (String.ofList part, text.dropWhile isBare)

/-- Reads the parts of a key, which are separated by dots, and the layout behind it. -/
def keyParts : Nat → List Char → Reading (List String)
  | 0, _ => .error .malformed
  | fuel + 1, text =>
      match keyPart text with
      | .error fault => .error fault
      | .ok (part, rest) =>
          match skipLayout rest with
          | '.' :: more => (keyParts fuel (skipLayout more)).map (part :: ·)
          | other => .ok ([part], other)

def key (text : List Char) : Reading Key :=
  (keyParts (text.length + 1) text).map fun parts => ⟨parts.dropLast, parts.getLastD ""⟩

/-!
### Values
-/

/-- Reads a value that is neither an array nor an inline table. -/
def scalar (text : List Char) : Reading Datum :=
  match text with
  | '"' :: '"' :: '"' :: rest =>
      (basicLines (dropFirstNewline rest)).map fun s => .text (String.ofList s)
  | '"' :: rest => (basicString rest).map fun s => .text (String.ofList s)
  | '\'' :: '\'' :: '\'' :: rest =>
      (literalLines (dropFirstNewline rest)).map fun s => .text (String.ofList s)
  | '\'' :: rest => (literalString rest).map fun s => .text (String.ofList s)
  | 't' :: 'r' :: 'u' :: 'e' :: rest => .ok (.boolean true, rest)
  | 'f' :: 'a' :: 'l' :: 's' :: 'e' :: rest => .ok (.boolean false, rest)
  | _ =>
      match moment? text with
      | .error fault => .error fault
      | .ok (some rest) => .ok (.moment, rest)
      | .ok none =>
          match number? text with
          | .error fault => .error fault
          | .ok (some found) => .ok found
          | .ok none =>
              match special? text with
              | some found => .ok found
              | none => .error .malformed

mutual

def value : Nat → List Char → Reading Datum
  | 0, _ => .error .malformed
  | fuel + 1, text =>
      match text with
      | '[' :: rest =>
          match skipLines false rest with
          | .error fault => .error fault
          | .ok (']' :: behind) => .ok (.list [], behind)
          | .ok behind => (items fuel behind).map .list
      | '\x7b' :: rest =>
          match skipLayout rest with
          | '\x7d' :: behind => .ok (.table [], behind)
          | behind => (fields fuel [] behind).map fun entries => .table (dataOf entries)
      | _ => scalar text

/-- Reads one or more items of an array and its closing bracket, before which a comma may stand. -/
def items : Nat → List Char → Reading (List Datum)
  | 0, _ => .error .malformed
  | fuel + 1, text =>
      match value fuel text with
      | .error fault => .error fault
      | .ok (datum, rest) =>
          match skipLines false rest with
          | .error fault => .error fault
          | .ok (']' :: behind) => .ok ([datum], behind)
          | .ok (',' :: behind) =>
              match skipLines false behind with
              | .error fault => .error fault
              | .ok (']' :: behind) => .ok ([datum], behind)
              | .ok next => (items fuel next).map (datum :: ·)
          | .ok _ => .error .malformed

/-- Reads one or more assignments of an inline table and its closing brace. -/
def fields : Nat → Entries → List Char → Reading Entries
  | 0, _, _ => .error .malformed
  | fuel + 1, entries, text =>
      match key text with
      | .error fault => .error fault
      | .ok (name, '=' :: rest) =>
          match value fuel (skipLayout rest) with
          | .error fault => .error fault
          | .ok (datum, behind) =>
              match assign 0 [] name datum entries with
              | none => .error .malformed
              | some entries =>
                  match skipLayout behind with
                  | '\x7d' :: behind => .ok (entries, behind)
                  | ',' :: behind => fields fuel entries (skipLayout behind)
                  | _ => .error .malformed
      | .ok _ => .error .malformed

end

/-!
### Statements
-/

/-- A document read so far: the number of the current section, its header, and the entries. -/
structure Draft where
  current : Nat
  header : List String
  entries : Entries

def assignment (draft : Draft) (text : List Char) : Reading Draft :=
  match key text with
  | .error fault => .error fault
  | .ok (name, '=' :: rest) =>
      match value (2 * rest.length + 2) (skipLayout rest) with
      | .error fault => .error fault
      | .ok (datum, behind) =>
          match assign draft.current draft.header name datum draft.entries with
          | some entries => .ok ({ draft with entries := entries }, behind)
          | none => .error .malformed
  | .ok _ => .error .malformed

def closing (brackets : List Char) (text : List Char) : Option (List Char) :=
  if brackets.isPrefixOf text then some (text.drop brackets.length) else none

/-- Reads the header of a section, behind its opening bracket or brackets. -/
def header (isSeries : Bool) (draft : Draft) (text : List Char) : Reading Draft :=
  match key (skipLayout text) with
  | .error fault => .error fault
  | .ok (name, rest) =>
      let current := draft.current + 1
      let changed :=
        if isSeries then appendTable name draft.entries
        else declareTable current name draft.entries
      match changed, closing (if isSeries then [']', ']'] else [']']) rest with
      | some entries, some behind => .ok (⟨current, name.path ++ [name.last], entries⟩, behind)
      | _, _ => .error .malformed

/-- Reads what a line states: an assignment, a header, or nothing. -/
def statement (draft : Draft) (text : List Char) : Reading Draft :=
  match text with
  | '[' :: '[' :: rest => header true draft rest
  | '[' :: rest => header false draft rest
  | [] => .ok (draft, [])
  | c :: rest =>
      if isBare c || c = '"' || c = '\'' then assignment draft (c :: rest)
      else if c = '#' || c = '\n' then .ok (draft, c :: rest)
      else .error .malformed

def lines : Nat → Draft → List Char → Except Fault Draft
  | 0, _, _ => .error .malformed
  | fuel + 1, draft, text =>
      match statement draft (skipLayout text) with
      | .error fault => .error fault
      | .ok (draft, rest) =>
          match skipComment (skipLayout rest) with
          | .error fault => .error fault
          | .ok [] => .ok draft
          | .ok ('\n' :: rest) => lines fuel draft rest
          | .ok _ => .error .malformed

/-- Reads a document as the table of its keys. Arrays and tables may be nested to any depth: the stack
    of the reader, which holds some hundred of them, is not modelled. -/
def read (text : String) : Except Fault (List (String × Datum)) :=
  let characters := unifyNewlines text.toList
  match lines (characters.length + 1) ⟨0, [], []⟩ characters with
  | .ok draft => .ok (dataOf draft.entries)
  | .error fault => .error fault

end Reckoner.Toml
