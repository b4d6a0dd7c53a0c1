/-
Module: Reckoner.Token.Sharing
Layer: Tokens
Purpose: Several scanners at work in turn. Each scans a line of its own; their reports go to one
  common list, or to a list for each. A schedule says which scanner does what next.
Main exports: Bench, Bench.Request, Bench.perform, Bench.performAll
-/
import Reckoner.Token.Scan

namespace Reckoner

/-- Scanners and the reports that they have made: in one list that all of them add to, or in a list
    for each scanner. -/
structure Bench where
  scanners : List Scanner
  shared : Bool
  common : List Report
  own : List (List Report)

namespace Bench

/-- A bench with a scanner for each line. A common list starts with the reports given. -/
def ofLines (lines : List String) (shared : Bool) (initial : List Report) : Bench :=
  ⟨lines.map Scanner.ofLine, shared, initial, lines.map fun _ => []⟩

def reportsAt (b : Bench) (index : Nat) : List Report :=
  if b.shared then b.common else (b.own[index]?).getD []

/-- Puts a scanner back after a step and adds the reports made to the list it writes to. -/
def settle (b : Bench) (index : Nat) (s : Scanner) (made : List Report) : Bench :=
  { b with
    scanners := b.scanners.set index s
    common := if b.shared then b.common ++ made else b.common
    own := if b.shared then b.own else b.own.modify index (· ++ made) }

inductive Request where
  /-- The next token. -/
  | next
  /-- The tokens of the rest of its line. -/
  | tokens
  /-- The reports that it sees. -/
  | reports
deriving DecidableEq, Repr

/-- The answer to a request. -/
inductive Answer where
  | token (token : Token)
  | tokens (tokens : List Token)
  | reports (reports : List Report)

/-- Asks the scanner at `index`. There is no answer if there is no such scanner. -/
def perform (b : Bench) (index : Nat) (request : Request) : Option (Answer × Bench) :=
  match b.scanners[index]? with
  | none => none
  | some s =>
      match request with
      | .next =>
          let step := s.next
          some (.token step.token, b.settle index step.next step.reports)
      | .tokens =>
          let scan := s.tokens
          some (.tokens scan.tokens, b.settle index scan.last scan.reports)
      | .reports => some (.reports (b.reportsAt index), b)

/-- Follows a schedule. Each answer comes with the number of reports that the scanner asked sees
    afterwards. -/
def performAll (b : Bench) : List (Nat × Request) → List (Answer × Nat)
  | [] => []
  | (index, request) :: schedule =>
      match b.perform index request with
      | none => []
      | some (answer, next) =>
          (answer, (next.reportsAt index).length) :: next.performAll schedule

end Bench

end Reckoner
