/-
Module: Reckoner.Line
Layer: Calculation
Purpose: What becomes of one line. A line is read as a tree; if nothing was reported the tree is
  evaluated, and its value or the fault of an arithmetic operation is the result. Any other fault is
  none of the line's, and breaks its calculation off.
Main exports: Line.Result, Line.interpret, Line.Calculation, Line.calculate
-/
import Reckoner.Expr.Machine
import Reckoner.Tree

namespace Reckoner.Line

/-- The outcome of a line: its tree, and what the evaluation gave if there was one. -/
structure Result where
  tree : Tree
  outcome : Option (Except Fault Int)

/-- Reads a line and, if it is faultless, evaluates it. -/
def interpret (line : String) : Result :=
  let tree := Tree.ofLine line
  ⟨tree, if tree.reports.isEmpty then some (Node.expr tree.root).evaluate else none⟩

namespace Result

def value? (r : Result) : Option Int :=
  match r.outcome with
  | some (.ok value) => some value
  | _ => none

def fault? (r : Result) : Option Fault :=
  match r.outcome with
  | some (.error fault) => some fault
  | _ => none

end Result

/-!
### Calculations that may break off
-/

/-- A line that has been calculated: its tree, the value if there is one, and the wording of the
    error if there is one. -/
structure Calculation where
  tree : Tree
  value : Option Int
  error : Option String

/-- Calculates a line. Its tree is evaluated if it has no diagnostics. Only an arithmetic fault is
    an error of the line; any other fault breaks the calculation off. -/
def calculate (line : String) : Except Fault Calculation :=
  let tree := Tree.ofLine line
  match tree.diagnostics with
  | _ :: _ => .ok ⟨tree, none, none⟩
  | [] =>
      match (Node.expr tree.root).evaluate with
      | .ok value => .ok ⟨tree, some value, none⟩
      | .error fault =>
          if fault.isArithmetic then .ok ⟨tree, none, some fault.message⟩ else .error fault

end Reckoner.Line
