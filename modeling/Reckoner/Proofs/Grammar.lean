/-
Module: Reckoner.Proofs.Grammar
Layer: Proofs
Purpose: The grammar of expressions, as the type of its derivations:

    term    ::= factor (('+' | '-') factor)*
    factor  ::= primary (('*' | '/') primary)*
    primary ::= '(' term ')' | NUMBER

  A derivation is not a binary tree: a term is a row of factors and a factor a row of primaries,
  both without any grouping. Three readings of a derivation are given: the tokens it derives, the
  binary tree that groups every row to the left, and what it means. The depth to which groups may be
  nested is an index of the type, so a derivation of depth `room` cannot be nested deeper.
Main exports: Grammar.Chain, Grammar.Primary, Grammar.Derivation, Derivation.yield, Derivation.tree,
  Derivation.meaning
-/
import Reckoner.Expr
import Reckoner.Proofs.Numeral.Decimal

namespace Reckoner.Grammar

/-- A token of one of the kinds `p`. -/
structure Terminal (p : Kind → Bool) where
  token : Token
  fits : p token.kind = true

/-- One or more operands, with an operator of the kinds `joins` in front of each but the first. -/
structure Chain (joins : Kind → Bool) (α : Type) where
  first : α
  others : List (Terminal joins × α)

/-- A number, or a group around some content. -/
inductive Primary (α : Type) where
  | number (token : Token) (isNumber : token.kind = .number)
  | group (opening : Token) (content : α) (closing : Token) (isOpening : opening.kind = .opening)
      (isClosing : closing.kind = .closing)

/-- A row of primaries with `*` and `/` between them. -/
abbrev Factor (α : Type) : Type :=
  Chain Kind.isMultiplicative (Primary α)

/-- A row of factors with `+` and `-` between them. -/
abbrev Term (α : Type) : Type :=
  Chain Kind.isAdditive (Factor α)

/-- What a group can contain if it and the groups in it may be nested `room` deep: nothing if there
    is no room, and otherwise a term whose groups have one less. -/
def Nested : Nat → Type
  | 0 => Empty
  | room + 1 => Term (Nested room)

/-- The derivations of terms in which groups are nested at most `room` deep. -/
abbrev Derivation (room : Nat) : Type :=
  Term (Nested room)

variable {joins : Kind → Bool} {α : Type}

/-!
### The tokens of a derivation
-/

/-- The tokens of a row: its operands and operators in order. -/
def Chain.yield (operand : α → List Token) (chain : Chain joins α) : List Token :=
  operand chain.first ++ chain.others.flatMap fun other => other.1.token :: operand other.2

def Primary.yield (content : α → List Token) : Primary α → List Token
  | number token _ => [token]
  | group opening inner closing _ _ => opening :: (content inner ++ [closing])

def Nested.yield : (room : Nat) → Nested room → List Token
  | 0 => Empty.elim
  | room + 1 => Chain.yield (Chain.yield (Primary.yield (Nested.yield room)))

def Derivation.yield {room : Nat} (derivation : Derivation room) : List Token :=
  Chain.yield (Chain.yield (Primary.yield (Nested.yield room))) derivation

/-!
### The tree of a derivation
-/

/-- The tree of a row: each operator takes all that stands in front of it as its left operand. -/
def Chain.tree (operand : α → Expr) (chain : Chain joins α) : Expr :=
  chain.others.foldl (fun left other => .binary left other.1.token (operand other.2))
    (operand chain.first)

def Primary.tree (content : α → Expr) : Primary α → Expr
  | number token _ => .numeral token
  | group opening inner closing _ _ => .group opening (content inner) closing

/-- The tree inside a group. -/
def Nested.tree : (room : Nat) → Nested room → Expr
  | 0 => Empty.elim
  | room + 1 => Chain.tree (Chain.tree (Primary.tree (Nested.tree room)))

/-- The tree of a derivation. -/
def Derivation.tree {room : Nat} (derivation : Derivation room) : Expr :=
  Chain.tree (Chain.tree (Primary.tree (Nested.tree room))) derivation

/-!
### The meaning of a derivation

A meaning is an integer, or else the position of the first division by zero that is met when
operands are evaluated from left to right and every operator is applied as soon as its right operand
is known.
-/

/-- The integer between -2^31 and 2^31 - 1 that has the same last 32 bits. -/
def reduce (value : Int) : Int :=
  (BitVec.ofInt 32 value).toInt

def sum (operator : Token) (left right : Int) : Except Int Int :=
  match operator.kind with
  | .minus => .ok (reduce (left - right))
  | _ => .ok (reduce (left + right))

/-- Multiplies or divides by the right operand. A quotient is rounded toward zero; there is none if
    the right operand is zero. -/
def product (operator : Token) (left right : Int) : Except Int Int :=
  match operator.kind with
  | .slash => if right = 0 then .error operator.position else .ok (reduce (left.tdiv right))
  | _ => .ok (reduce (left * right))

/-- The meaning of a row: its operands are combined one after the other. -/
def Chain.meaning (combine : Token → Int → Int → Except Int Int) (operand : α → Except Int Int)
    (chain : Chain joins α) : Except Int Int := do
  let first ← operand chain.first
  chain.others.foldlM
    (fun total other => do
      let next ← operand other.2
      combine other.1.token total next)
    first

/-- The meaning of a primary: a number means the decimal value of its digits, and a group what its
    content means. -/
def Primary.meaning (content : α → Except Int Int) : Primary α → Except Int Int
  | number token _ => .ok (Numeral.decimal token.text.toList)
  | group _ inner _ _ _ => content inner

def Nested.meaning : (room : Nat) → Nested room → Except Int Int
  | 0 => Empty.elim
  | room + 1 => Chain.meaning sum (Chain.meaning product (Primary.meaning (Nested.meaning room)))

/-- The meaning of a derivation. -/
def Derivation.meaning {room : Nat} (derivation : Derivation room) : Except Int Int :=
  Chain.meaning sum (Chain.meaning product (Primary.meaning (Nested.meaning room))) derivation

end Reckoner.Grammar
