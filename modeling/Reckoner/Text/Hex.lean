/-
Module: Reckoner.Text.Hex
Layer: Text
Purpose: Numbers in base sixteen, and characters named by their code points.
Main exports: Text.hexValue?, Text.hexText, Text.hexNumber?, Text.charOfHex?
-/

namespace Reckoner.Text

def hexValue? (c : Char) : Option Nat :=
  if c.isDigit then some (c.toNat - 48)
  else if 'a'.toNat ≤ c.toNat && c.toNat ≤ 'f'.toNat then some (c.toNat - 87)
  else if 'A'.toNat ≤ c.toNat && c.toNat ≤ 'F'.toNat then some (c.toNat - 55)
  else none

def hexDigit (value : Nat) : Char :=
  if value < 10 then Char.ofNat (48 + value) else Char.ofNat (87 + value)

/-- The `width` last digits of a number in base sixteen. -/
def hexText : Nat → Nat → List Char
  | 0, _ => []
  | width + 1, value => hexText width (value / 16) ++ [hexDigit (value % 16)]

/-- The number that digits of base sixteen denote. -/
def hexNumber? (digits : List Char) : Option Nat :=
  (digits.mapM hexValue?).map fun values => values.foldl (fun total d => 16 * total + d) 0

/-- The character whose code point is written in base sixteen. Surrogates are no characters. -/
def charOfHex? (digits : List Char) : Option Char :=
  match hexNumber? digits with
  | some code => if h : code.isValidChar then some (Char.ofNatAux code h) else none
  | none => none

end Reckoner.Text
