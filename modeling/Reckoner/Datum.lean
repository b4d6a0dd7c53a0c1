/-
Module: Reckoner.Datum
Layer: Settings
Purpose: Data as configuration files hold them, and the exact reading of their decimal fractions. A
  fraction is kept as it is written, as a whole number times a power of ten; what a binary format of
  double precision makes of it is asked only where it matters, at zero and at one.
Main exports: Quantity, Quantity.roundsToZero, Quantity.roundsToOne, Datum, Datum.isEmpty,
  Datum.text?
-/

namespace Reckoner

/-- A number that is not written as an integer. -/
inductive Quantity where
  /-- The number `mantissa · 10 ^ exponent`, with a minus in front if `negative`. -/
  | decimal (negative : Bool) (mantissa : Nat) (exponent : Int)
  | infinite (negative : Bool)
  | notANumber
deriving DecidableEq, Repr

namespace Quantity

/-- Whether the nearest number of double precision is a zero: the absolute value is at most half of
    the least positive one, which is 2^-1074. For a power of ten far below the mantissa this is
    known without computing it. -/
def roundsToZero : Quantity → Bool
  | decimal _ mantissa exponent =>
      if 0 ≤ exponent then mantissa = 0
      else
        let places := exponent.natAbs
        mantissa = 0 || mantissa.log2 + 1100 ≤ places
          || mantissa * Nat.pow 2 1075 ≤ Nat.pow 10 places
  | _ => false

/-- Whether the nearest number of double precision is one: the value is within half a unit in the
    last place, which is 2^-53 below one and 2^-52 above it. -/
def roundsToOne : Quantity → Bool
  | decimal false mantissa exponent =>
      if 0 ≤ exponent then mantissa = 1 && exponent = 0
      else
        let places := exponent.natAbs
        places ≤ mantissa.log2 + 1
          && (Nat.pow 2 54 - 1) * Nat.pow 10 places ≤ mantissa * Nat.pow 2 54
          && mantissa * Nat.pow 2 53 ≤ (Nat.pow 2 53 + 1) * Nat.pow 10 places
  | _ => false

end Quantity

/-- A datum of a configuration file. Dates and times are not told apart: no setting takes one. -/
inductive Datum where
  | null
  | boolean (value : Bool)
  | integer (value : Int)
  | real (value : Quantity)
  | text (value : String)
  | moment
  | list (items : List Datum)
  | table (entries : List (String × Datum))
deriving Inhabited

/-- A datum that says nothing: a zero, a false, or something with nothing in it. -/
def Datum.isEmpty : Datum → Bool
  | null => true
  | boolean value => !value
  | integer value => value = 0
  | real value => value.roundsToZero
  | text value => value.isEmpty
  | moment => false
  | list items => items.isEmpty
  | table entries => entries.isEmpty

def Datum.text? : Datum → Option String
  | text value => some value
  | _ => none

end Reckoner
