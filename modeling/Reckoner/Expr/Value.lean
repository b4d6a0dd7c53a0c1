/-
Module: Reckoner.Expr.Value
Layer: Trees
Purpose: The value of an expression tree. Operands are evaluated from left to right, then the
  operator is applied, and the first failure in that order is the outcome. A value is always reduced
  to the range of words, and division discards the fraction.
Main exports: Fault, Fault.message, Operator.apply, Expr.value, Node.value
-/
import Reckoner.Expr

namespace Reckoner

/-- Why a tree has no value. A tree read from a faultless line can only divide by zero; the other
    causes need a tree that was mended or built by hand. -/
inductive Fault where
  /-- The right operand of the division at `position` is zero. -/
  | divisionByZero (position : Int)
  /-- A token stands where an expression has to. -/
  | unexpectedNode (kind : Kind)
  /-- The token of a number carries no value. -/
  | missingValue
  /-- The operator of a binary expression is none of the four. -/
  | unexpectedOperator (kind : Kind)
deriving DecidableEq, Repr

namespace Fault

/-- What a fault is about, for the faults that are about a part of the tree. -/
def subject : Fault → String
  | divisionByZero position => s!"{position}"
  | unexpectedNode kind => kind.name
  | missingValue => s!"{Kind.numeral.name} without a decoded value"
  | unexpectedOperator kind => kind.name

def message (fault : Fault) : String :=
  match fault with
  | divisionByZero position => s!"ERR: Division by zero at position {position}"
  | unexpectedNode _ | missingValue => s!"Unexpected node: {fault.subject}"
  | unexpectedOperator _ => s!"Unexpected binary operator {fault.subject}"

/-- The faults that a faultless line can have. -/
def isArithmetic : Fault → Bool
  | divisionByZero _ => true
  | _ => false

end Fault

/-- Applies an operator to two values. The quotient is the one nearer to zero. -/
def Operator.apply (operator : Token) (left right : Int) : Except Fault Int :=
  match operator.kind with
  | .plus => .ok (Word.wrap (left + right))
  | .minus => .ok (Word.wrap (left - right))
  | .star => .ok (Word.wrap (left * right))
  | .slash =>
      if right = 0 then .error (.divisionByZero operator.position)
      else .ok (Word.wrap (left.tdiv right))
  | kind => .error (.unexpectedOperator kind)

/-- The value of an expression. -/
def Expr.value : Expr → Except Fault Int
  | .numeral token =>
      match token.value with
      | some v => .ok v
      | none => .error .missingValue
  | .group _ inner _ => inner.value
  | .binary left operator right =>
      match left.value with
      | .error fault => .error fault
      | .ok l =>
          match right.value with
          | .error fault => .error fault
          | .ok r => Operator.apply operator l r

/-- The value of a node: a token on its own has none. -/
def Node.value : Node → Except Fault Int
  | .leaf token => .error (.unexpectedNode token.kind)
  | .expr e => e.value

end Reckoner
