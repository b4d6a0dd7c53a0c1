/-
Module: Reckoner.Toml.Scalar
Layer: Toml
Purpose: Numbers, dates and times. Each reader says whether its form stands at the front of a text;
  what stands behind a form is left to the statement around it.
Main exports: Toml.number?, Toml.moment?, Toml.special?
-/
import Reckoner.Datum
import Reckoner.Numeral
import Reckoner.Toml.Quotation

namespace Reckoner.Toml

/-!
### Numbers
-/

/-- The digits of class `p` at the front of a text, and the text behind them. A single underscore
    may stand before each of them, which therefore continue a run that has started. -/
def moreDigits (p : Char → Bool) : List Char → List Char × List Char
  | '_' :: d :: text =>
      if p d then
        let (digits, rest) := moreDigits p text
        (d :: digits, rest)
      else
        ([], '_' :: d :: text)
  | d :: text =>
      if p d then
        let (digits, rest) := moreDigits p text
        (d :: digits, rest)
      else
        ([], d :: text)
  | [] => ([], [])

/-- A run of digits of class `p` at the front of a text. -/
def digitRun? (p : Char → Bool) : List Char → Option (List Char × List Char)
  | d :: text =>
      if p d then
        let (digits, rest) := moreDigits p text
        some (d :: digits, rest)
      else
        none
  | [] => none

/-- The number that digits denote in a base of at most sixteen. -/
def inBase (base : Nat) (digits : List Char) : Nat :=
  digits.foldl (fun total d => base * total + (Text.hexValue? d).getD 0) 0

/-- The class of digits and the base that the letter of an integer with a base stands for. -/
def baseOf? : Char → Option (Nat × (Char → Bool))
  | 'x' => some (16, fun c => (Text.hexValue? c).isSome)
  | 'o' => some (8, fun c => '0' ≤ c && c ≤ '7')
  | 'b' => some (2, fun c => c = '0' || c = '1')
  | _ => none

/-- An integer with a base at the front of a text. -/
def basedInteger? : List Char → Option (Datum × List Char)
  | '0' :: letter :: text =>
      match baseOf? letter with
      | none => none
      | some (base, p) =>
          (digitRun? p text).map fun (digits, rest) => (.integer (inBase base digits), rest)
  | _ => none

/-- The sign at the front of a text: whether it is a minus. -/
def sign : List Char → Bool × List Char
  | '-' :: text => (true, text)
  | '+' :: text => (false, text)
  | text => (false, text)

/-- The whole part of a decimal number: a zero alone, or digits of which the first is no zero. -/
def wholePart? : List Char → Option (List Char × List Char)
  | '0' :: text => some (['0'], text)
  | text => digitRun? Char.isDigit text

/-- The digits behind a decimal point. Without digits the point does not belong to the number. -/
def fraction? : List Char → Option (List Char × List Char)
  | '.' :: text => digitRun? Char.isDigit text
  | _ => none

/-- The power of ten behind a letter `e`. Without digits the letter does not belong to the
    number. -/
def exponent? : List Char → Option (Int × List Char)
  | e :: text =>
      if e = 'e' || e = 'E' then
        let (isNegative, unsigned) := sign text
        (digitRun? Char.isDigit unsigned).map fun (digits, rest) =>
          let size : Int := inBase 10 digits
          (if isNegative then -size else size, rest)
      else
        none
  | [] => none

/-- A decimal number at the front of a text: an integer unless a fraction or a power follows. -/
def decimalNumber? (text : List Char) : Except Fault (Option (Datum × List Char)) :=
  let (isNegative, unsigned) := sign text
  match wholePart? unsigned with
  | none => .ok none
  | some (whole, behind) =>
      let (places, rest, isReal) :=
        match fraction? behind with
        | some (digits, rest) => (digits, rest, true)
        | none => ([], behind, false)
      match exponent? rest, isReal with
      | none, false =>
          if whole.length ≤ Numeral.digitLimit then
            let size : Int := inBase 10 whole
            .ok (some (.integer (if isNegative then -size else size), rest))
          else
            .error .numeralTooLong
      | power, _ =>
          let (exponent, rest) := power.getD (0, rest)
          let mantissa := inBase 10 (whole ++ places)
          .ok (some (.real (.decimal isNegative mantissa (exponent - places.length)), rest))

def number? (text : List Char) : Except Fault (Option (Datum × List Char)) :=
  match basedInteger? text with
  | some found => .ok (some found)
  | none => decimalNumber? text

/-- An infinity, or what is not a number, at the front of a text. -/
def special? (text : List Char) : Option (Datum × List Char) :=
  let (isNegative, unsigned) := sign text
  match unsigned with
  | 'i' :: 'n' :: 'f' :: rest => some (.real (.infinite isNegative), rest)
  | 'n' :: 'a' :: 'n' :: rest => some (.real .notANumber, rest)
  | _ => none

/-!
### Dates and times
-/

/-- The number that two ASCII digits denote, if it is one of those allowed. -/
def pair? (least greatest : Nat) (tens ones : Char) : Option Nat :=
  if tens.isDigit && ones.isDigit then
    let value := inBase 10 [tens, ones]
    if least ≤ value && value ≤ greatest then some value else none
  else
    none

/-- The text behind the fraction of a second, if one stands at the front. -/
def skipSubseconds : List Char → List Char
  | '.' :: d :: text => if d.isDigit then text.dropWhile Char.isDigit else '.' :: d :: text
  | text => text

/-- The text behind a time of day at the front of a text. -/
def skipTime? : List Char → Option (List Char)
  | h1 :: h0 :: ':' :: m1 :: m0 :: ':' :: s1 :: s0 :: text =>
      match pair? 0 23 h1 h0, pair? 0 59 m1 m0, pair? 0 59 s1 s0 with
      | some _, some _, some _ => some (skipSubseconds text)
      | _, _, _ => none
  | _ => none

/-- The text behind the distance from universal time, if one stands at the front. -/
def skipOffset : List Char → List Char
  | 'Z' :: text => text
  | 'z' :: text => text
  | mark :: h1 :: h0 :: ':' :: m1 :: m0 :: text =>
      match pair? 0 23 h1 h0, pair? 0 59 m1 m0 with
      | some _, some _ =>
          if mark = '+' || mark = '-' then text else mark :: h1 :: h0 :: ':' :: m1 :: m0 :: text
      | _, _ => mark :: h1 :: h0 :: ':' :: m1 :: m0 :: text
  | text => text

/-- The text behind the time of day that may follow a date. -/
def skipTimeOfDate : List Char → List Char
  | mark :: text =>
      if mark = 'T' || mark = 't' || mark = ' ' then
        match skipTime? text with
        | some rest => skipOffset rest
        | none => mark :: text
      else
        mark :: text
  | [] => []

def daysIn (year month : Nat) : Nat :=
  if month = 2 then
    if year % 4 = 0 && (year % 100 != 0 || year % 400 = 0) then 29 else 28
  else if month = 4 || month = 6 || month = 9 || month = 11 then 30
  else 31

/-- A date, a date with a time, or a time at the front of a text. What has the form of a date but
    is no day of the calendar makes the document malformed. -/
def moment? (text : List Char) : Except Fault (Option (List Char)) :=
  match text with
  | y3 :: y2 :: y1 :: y0 :: '-' :: m1 :: m0 :: '-' :: d1 :: d0 :: rest =>
      match pair? 0 99 y3 y2, pair? 0 99 y1 y0, pair? 1 12 m1 m0, pair? 1 31 d1 d0 with
      | some century, some yearOfCentury, some month, some day =>
          let year := 100 * century + yearOfCentury
          if 1 ≤ year && day ≤ daysIn year month then .ok (some (skipTimeOfDate rest))
          else .error .malformed
      | _, _, _, _ => .ok none
  | _ => .ok (skipTime? text)

end Reckoner.Toml
