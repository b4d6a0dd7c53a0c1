/-
Module: Reckoner.Text.Class
Layer: Text
Purpose: The three character classes that the calculator distinguishes, and the plain text
  operations that are stated with them. A digit is any decimal digit of any writing system, and a
  blank is any character that separates words; both are closed tables, so membership is decidable by
  arithmetic on code points alone.
Main exports: Text.isWithin, Text.isDecimal, Text.decimalValue?, Text.isBlank, Text.isAscii,
  Text.trim, Text.trimEnd, Text.pieces, Text.lines, Text.words
-/

namespace Reckoner.Text

/-- Whether a code point lies in one of several runs, given as first and last code points in
    ascending order: the first run that does not end before it decides. -/
def isWithinCode (code : Nat) : List (Nat × Nat) → Bool
  | [] => false
  | run :: runs => if code ≤ run.2 then run.1 ≤ code else isWithinCode code runs

/-- Whether a character lies in one of several ascending runs. -/
def isWithin (runs : List (Nat × Nat)) (c : Char) : Bool :=
  isWithinCode c.toNat runs

/-- The code points of the decimal zeros. Every decimal digit lies in a run of ten consecutive
    characters of values 0 to 9 that starts at one of these. -/
def decimalZeros : List Nat :=
  [0x30, 0x660, 0x6F0, 0x7C0, 0x966, 0x9E6, 0xA66, 0xAE6, 0xB66, 0xBE6, 0xC66, 0xCE6, 0xD66, 0xDE6,
   0xE50, 0xED0, 0xF20, 0x1040, 0x1090, 0x17E0, 0x1810, 0x1946, 0x19D0, 0x1A80, 0x1A90, 0x1B50,
   0x1BB0, 0x1C40, 0x1C50, 0xA620, 0xA8D0, 0xA900, 0xA9D0, 0xA9F0, 0xAA50, 0xABF0, 0xFF10, 0x104A0,
   0x10D30, 0x11066, 0x110F0, 0x11136, 0x111D0, 0x112F0, 0x11450, 0x114D0, 0x11650, 0x116C0,
   0x11730, 0x118E0, 0x11950, 0x11C50, 0x11D50, 0x11DA0, 0x16A60, 0x16AC0, 0x16B50, 0x1D7CE,
   0x1D7D8, 0x1D7E2, 0x1D7EC, 0x1D7F6, 0x1E140, 0x1E2F0, 0x1E950, 0x1FBF0]

/-- The value of a decimal digit: its distance from the zero of its run. -/
def decimalValue? (c : Char) : Option Nat :=
  (decimalZeros.find? fun base => base ≤ c.toNat && c.toNat < base + 10).map (c.toNat - ·)

/-- A decimal digit of any writing system. -/
def isDecimal (c : Char) : Bool :=
  decimalZeros.any fun base => base ≤ c.toNat && c.toNat < base + 10

/-- The runs of blank characters, as first and last code points. -/
def blankRuns : List (Nat × Nat) :=
  [(0x9, 0xD), (0x1C, 0x20), (0x85, 0x85), (0xA0, 0xA0), (0x1680, 0x1680), (0x2000, 0x200A),
   (0x2028, 0x2029), (0x202F, 0x202F), (0x205F, 0x205F), (0x3000, 0x3000)]

/-- A character that only separates words. -/
def isBlank (c : Char) : Bool :=
  blankRuns.any fun run => run.1 ≤ c.toNat && c.toNat ≤ run.2

def isAscii (c : Char) : Bool :=
  c.toNat < 128

theorem isDecimal_of_isDigit {c : Char} (h : c.isDigit = true) : isDecimal c = true := by
  have lower : 48 ≤ c.toNat := by
    simp only [Char.isDigit, Bool.and_eq_true, decide_eq_true_eq] at h
    exact UInt32.le_iff_toNat_le.mp h.1
  have upper : c.toNat ≤ 57 := by
    simp only [Char.isDigit, Bool.and_eq_true, decide_eq_true_eq] at h
    exact UInt32.le_iff_toNat_le.mp h.2
  refine List.any_eq_true.mpr ⟨0x30, List.mem_cons_self, ?_⟩
  simp only [Bool.and_eq_true, decide_eq_true_eq]
  omega

/-- The text without the characters of class `p` at its two ends. -/
def trim (p : Char → Bool) (text : List Char) : List Char :=
  ((text.dropWhile p).reverse.dropWhile p).reverse

/-- The text without the characters of class `p` at its end. -/
def trimEnd (p : Char → Bool) (text : List Char) : List Char :=
  (text.reverse.dropWhile p).reverse

/-- Adds one character in front of the first of several words. -/
def extendFirst (c : Char) : List (List Char) → List (List Char)
  | [] => [[c]]
  | word :: others => (c :: word) :: others

/-- The text cut at every character of class `p`; the pieces may be empty. -/
def pieces (p : Char → Bool) (text : List Char) : List (List Char) :=
  text.foldr (fun c others => if p c then [] :: others else extendFirst c others) [[]]

@[simp] theorem pieces_nil (p : Char → Bool) : pieces p [] = [[]] := rfl

@[simp] theorem pieces_cons (p : Char → Bool) (c : Char) (text : List Char) :
    pieces p (c :: text) = if p c then [] :: pieces p text else extendFirst c (pieces p text) := rfl

/-- The text with a line feed in the place of every other line end, which is a carriage return or a
    carriage return with a line feed behind it. -/
def unifyLineEnds (text : List Char) : List Char :=
  let step (state : Bool × List Char) (c : Char) : Bool × List Char :=
    let (afterReturn, done) := state
    if c = '\r' then (true, '\n' :: done)
    else if c = '\n' && afterReturn then (false, done)
    else (false, c :: done)
  (text.foldl step (false, [])).2.reverse

/-- The lines of a text. The last one need not have a line end. -/
def lines (text : List Char) : List (List Char) :=
  let cut := pieces (· = '\n') (unifyLineEnds text)
  if cut.getLastD [] = [] then cut.dropLast else cut

/-- The words of a text: its longest runs of characters that are not blank. -/
def words (text : List Char) : List (List Char) :=
  (pieces isBlank text).filter (! ·.isEmpty)

end Reckoner.Text
