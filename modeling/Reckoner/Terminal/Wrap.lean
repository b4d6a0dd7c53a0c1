/-
Module: Reckoner.Terminal.Wrap
Layer: Terminal
Purpose: Breaking a line of text that is wider than the terminal. It is broken before a word that
  does not fit any more; a word that is wider than a whole line starts on a line of its own and is
  broken wherever a line is full. Blanks stay with the word before them, and where they reach beyond
  the end of a line they are dropped.
Main exports: Terminal.words, Terminal.chop, Terminal.brokenLines, Terminal.fit, Terminal.wrap
-/
import Reckoner.Terminal.Cells

namespace Reckoner.Terminal

/-- The words of a line, each with the blanks behind it, and the first one also with those before
    it. They make up the line, unless it has nothing but blanks. -/
def words (line : List Char) : List (List Char) :=
  let add (c : Char) (found : List (List Char)) : List (List Char) :=
    match found with
    | (d :: word) :: others =>
        if Text.isBlank c && !Text.isBlank d then [c] :: (d :: word) :: others
        else (c :: d :: word) :: others
    | _ => [[c]]
  match line.foldr add [] with
  | first :: second :: others =>
      if first.all Text.isBlank then (first ++ second) :: others else first :: second :: others
  | few => few.filter fun word => !word.all Text.isBlank

/-- A line that is being broken: the lines before, the latest first; the text of the present one;
    and its cells. -/
structure Breaking where
  finished : List (List Char)
  present : List Char
  taken : Nat
deriving DecidableEq, Repr

def Breaking.empty : Breaking := ⟨[], [], 0⟩

def Breaking.extend (b : Breaking) (text : List Char) (gained : Nat) : Breaking :=
  { b with present := b.present ++ text, taken := b.taken + gained }

/-- Puts a text on a new line, or on the present one if that is empty. -/
def Breaking.start (b : Breaking) (text : List Char) (taken : Nat) : Breaking :=
  ⟨if b.present.isEmpty then b.finished else b.present :: b.finished, text, taken⟩

def Breaking.lines (b : Breaking) : List (List Char) :=
  (b.present :: b.finished).reverse

/-- The pieces of a text, each as many clusters as fit on a line. -/
def chop (columns : Nat) (text : List Char) : List (List Char) :=
  let add (b : Breaking) (cluster : Cluster) : Breaking :=
    if b.taken + cluster.width ≤ columns then b.extend cluster.characters cluster.width
    else b.start cluster.characters cluster.width
  ((clusters text).foldl add .empty).lines

/-- Puts a word on the present line if it fits without the blanks behind it, and else on new
    lines. -/
def Breaking.addWord (columns : Nat) (b : Breaking) (word : List Char) : Breaking :=
  let bare := width (Text.trimEnd Text.isBlank word)
  if b.taken + bare ≤ columns then b.extend word (width word)
  else if bare ≤ columns then b.start word (width word)
  else (chop columns word).foldl (fun b piece => b.start piece (width piece)) b

def brokenLines (columns : Nat) (line : List Char) : List (List Char) :=
  match words line with
  | [] => [line]
  | found => (found.foldl (Breaking.addWord columns) .empty).lines

/-- A line without the blanks at its end that make it longer than `columns` characters. -/
def dropOverhang (columns : Nat) (line : List Char) : List Char :=
  let blanks := (line.reverse.takeWhile Text.isBlank).length
  line.take (line.length - min blanks (line.length - columns))

/-- The characters of clusters that fit in a number of cells. Half a cluster is shown as blanks. -/
def fitting (room : Nat) : List Cluster → List Char
  | [] => []
  | cluster :: others =>
      if cluster.width ≤ room then cluster.characters ++ fitting (room - cluster.width) others
      else List.replicate room ' '

/-- A line without what does not fit on the terminal. -/
def crop (columns : Nat) (line : List Char) : List Char :=
  if width line ≤ columns then line else fitting columns (clusters line)

/-- A line as it is shown on a terminal of a number of columns. -/
def fit (columns : Nat) (line : List Char) : List Char :=
  crop columns (dropOverhang columns line)

/-- The lines in which a terminal of a number of columns shows a line. -/
def wrap (columns : Nat) (line : List Char) : List (List Char) :=
  (brokenLines columns line).map (fit columns)

end Reckoner.Terminal
