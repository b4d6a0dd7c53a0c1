/-
Module: Reckoner.Token.Scan
Layer: Tokens
Purpose: Scanning a line into tokens. A scanner is the rest of the line together with the offset at
  which it starts; each step takes the longest token from the front of the rest. Runs of digits and
  runs of blanks are single tokens, and every other character is a token of its own. A step at the
  end gives the end token, again and again.
Main exports: Scanner, Scanner.munch, Scanner.next, Scanner.tokens, Token.scan
-/
import Reckoner.Numeral
import Reckoner.Report
import Reckoner.Token

namespace Reckoner

/-- A position inside a line: the line itself, the number of characters behind, and those ahead. -/
structure Scanner where
  line : String
  position : Nat
  rest : List Char
deriving DecidableEq, Repr

/-- One token, the reports made while scanning it, and the scanner behind it. -/
structure Scanner.Step where
  token : Token
  reports : List Report
  next : Scanner

/-- The tokens of a text, the reports made while scanning it, and the scanner at its end. -/
structure Scan where
  tokens : List Token
  reports : List Report
  last : Scanner

namespace Scanner

def ofLine (line : String) : Scanner :=
  ⟨line, 0, line.toList⟩

/-- The number token of a run of digits. It has a value if the run denotes a word. -/
def numberToken (position : Nat) (run : List Char) : Token :=
  ⟨.number, position, String.ofList run, Numeral.decode run, by
    cases h : Numeral.decode run with
    | none => trivial
    | some value => exact ⟨rfl, Numeral.decode_inRange h⟩⟩

/-- What the scan of a token reports: a number without a value, or a bad character. -/
def reportsOf (line : String) (token : Token) : List Report :=
  match token.kind with
  | .number => if token.value.isNone then [.invalidNumber line] else []
  | .bad => [.badCharacter token.text]
  | _ => []

/-- The longest token at the front of a text that starts with `c`, and the text behind it. -/
def munch (position : Nat) (c : Char) (text : List Char) : Token × List Char :=
  if Text.isDecimal c then
    (numberToken position (c :: text.takeWhile Text.isDecimal), text.dropWhile Text.isDecimal)
  else if Text.isBlank c then
    (Token.plain .blank position (String.ofList (c :: text.takeWhile Text.isBlank)),
      text.dropWhile Text.isBlank)
  else
    (Token.plain (Kind.ofChar c) position (String.ofList [c]), text)

/-- What is behind the first token is no longer than what is behind its first character. -/
theorem length_munch_le (position : Nat) (c : Char) (text : List Char) :
    (munch position c text).2.length ≤ text.length := by
  unfold munch
  split
  · exact (List.dropWhile_sublist _).length_le
  · split
    · exact (List.dropWhile_sublist _).length_le
    · exact Nat.le_refl _

/-- Takes one token. At the end of the line the scanner stays where it is. -/
def next (s : Scanner) : Step :=
  match s.rest with
  | [] => ⟨Token.finish s.position, [], s⟩
  | c :: text =>
      let (token, behind) := munch s.position c text
      ⟨token, reportsOf s.line token,
        ⟨s.line, s.position + token.text.length, behind⟩⟩

/-- What is left behind a step is shorter, as long as anything was left before. -/
theorem length_next_lt {s : Scanner} (h : s.rest ≠ []) :
    s.next.next.rest.length < s.rest.length := by
  cases hrest : s.rest with
  | nil => exact absurd hrest h
  | cons c text =>
      have := length_munch_le s.position c text
      simp only [next, hrest, List.length_cons]
      omega

/-- The tokens of the rest of the line up to and including the end token. -/
def tokens (s : Scanner) : Scan :=
  if h : s.rest = [] then ⟨[Token.finish s.position], [], s⟩
  else
    have := length_next_lt h
    let others := tokens s.next.next
    ⟨s.next.token :: others.tokens, s.next.reports ++ others.reports, others.last⟩
termination_by s.rest.length

end Scanner

/-- The tokens of a whole line, blanks and bad characters included. -/
def Token.scan (line : String) : List Token :=
  (Scanner.ofLine line).tokens.tokens

end Reckoner
