/-
Module: Reckoner.Numeral
Layer: Text
Purpose: Reading a decimal numeral as a signed 32-bit integer. A numeral is written in ASCII: blanks
  around it are dropped, one sign may stand in front, and single underscores may stand between
  digits. A numeral of more than 4300 digits is refused whatever it denotes, leading zeros included.
Main exports: Numeral.digits?, Numeral.valueOf, Numeral.literal?, Numeral.decode,
  Numeral.decode_inRange
-/
import Reckoner.Text.Class
import Reckoner.Word

namespace Reckoner.Numeral

/-- The blanks that may surround a numeral: the space and the five ASCII layout controls. -/
def isPadding (c : Char) : Bool :=
  c = ' ' || (9 ≤ c.toNat && c.toNat ≤ 13)

def digit? (c : Char) : Option Nat :=
  if c.isDigit then some (c.toNat - 48) else none

/-- The digit values of a run of digits in which a single underscore may stand between two digits.
    The empty run is refused. -/
def digits? : List Char → Option (List Nat)
  | [] => none
  | [c] => (digit? c).map ([·])
  | c :: '_' :: rest =>
      match digit? c, digits? rest with
      | some d, some ds => some (d :: ds)
      | _, _ => none
  | c :: rest =>
      match digit? c, digits? rest with
      | some d, some ds => some (d :: ds)
      | _, _ => none

/-- The number that digits denote, the most significant first. -/
def valueOf (digits : List Nat) : Nat :=
  digits.foldl (fun total d => 10 * total + d) 0

/-- The greatest number of digits that a numeral may have. -/
def digitLimit : Nat := 4300

/-- The number denoted by a run of digits that is not too long. -/
def magnitude? (run : List Char) : Option Nat :=
  match digits? run with
  | some digits => if digits.length ≤ digitLimit then some (valueOf digits) else none
  | none => none

/-- The integer denoted by a run of digits behind at most one sign. -/
def signed? : List Char → Option Int
  | '-' :: run => (magnitude? run).map fun n => -(n : Int)
  | '+' :: run => (magnitude? run).map Int.ofNat
  | run => (magnitude? run).map Int.ofNat

/-- The integer that a numeral denotes, of any size. -/
def literal? (text : List Char) : Option Int :=
  if text.all Text.isAscii then signed? (Text.trim isPadding text) else none

/-- The signed 32-bit integer that a numeral denotes. -/
def decode (text : List Char) : Option Int :=
  (literal? text).filter fun value => decide (Word.InRange value)

theorem decode_inRange {text : List Char} {value : Int} (h : decode text = some value) :
    Word.InRange value := by
  rw [decode, Option.filter_eq_some_iff] at h
  exact of_decide_eq_true h.2

end Reckoner.Numeral
