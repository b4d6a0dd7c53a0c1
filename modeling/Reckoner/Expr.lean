/-
Module: Reckoner.Expr
Layer: Trees
Purpose: Expression trees. An expression is a number, a group in parentheses, or two operands around
  an operator; its parts that are not expressions are tokens. A node is a token or an expression, so
  that trees can be walked and printed without special cases.
Main exports: Expr, Node, Expr.text, Expr.size, Node.kind, Node.children, Node.text, Node.size
-/
import Reckoner.Token

namespace Reckoner

/-- Expressions over tokens. Nothing is assumed of the kinds of the tokens. -/
inductive Expr where
  | numeral (token : Token)
  | group (opening : Token) (inner : Expr) (closing : Token)
  | binary (left : Expr) (operator : Token) (right : Expr)
deriving DecidableEq

/-- A node of a tree: a leaf or an expression. -/
inductive Node where
  | leaf (token : Token)
  | expr (e : Expr)
deriving DecidableEq

namespace Expr

def kind : Expr → Kind
  | numeral _ => .numeral
  | group .. => .group
  | binary .. => .binary

/-- The fully parenthesized text of an expression. The parentheses are written as such, whatever the
    tokens of the group are. -/
def text : Expr → String
  | numeral token => token.text
  | group _ inner _ => "(" ++ inner.text ++ ")"
  | binary left operator right =>
      "(" ++ left.text ++ " " ++ operator.text ++ " " ++ right.text ++ ")"

/-- The direct parts of an expression, from left to right. -/
def children : Expr → List Node
  | numeral token => [.leaf token]
  | group opening inner closing => [.leaf opening, .expr inner, .leaf closing]
  | binary left operator right => [.expr left, .leaf operator, .expr right]

/-- The number of nodes of an expression, leaves included. -/
def size : Expr → Nat
  | numeral _ => 2
  | group _ inner _ => inner.size + 3
  | binary left _ right => left.size + right.size + 2

end Expr

namespace Node

def kind : Node → Kind
  | leaf token => token.kind
  | expr e => e.kind

def text : Node → String
  | leaf token => token.text
  | expr e => e.text

def children : Node → List Node
  | leaf _ => []
  | expr e => e.children

/-- The number of nodes of the tree under a node. -/
def size : Node → Nat
  | leaf _ => 1
  | expr e => e.size

def totalSize : List Node → Nat
  | [] => 0
  | n :: nodes => n.size + totalSize nodes

@[simp] theorem totalSize_nil : totalSize [] = 0 := rfl

@[simp] theorem totalSize_cons (n : Node) (nodes : List Node) :
    totalSize (n :: nodes) = n.size + totalSize nodes := rfl

@[simp] theorem totalSize_append (nodes others : List Node) :
    totalSize (nodes ++ others) = totalSize nodes + totalSize others := by
  induction nodes with
  | nil => simp
  | cons n nodes ih =>
      simp only [List.cons_append, totalSize_cons, ih]
      omega

/-- A tree is its root and the trees under its children. -/
theorem size_eq (n : Node) : n.size = totalSize n.children + 1 := by
  cases n with
  | leaf token => rfl
  | expr e =>
      cases e <;> simp [size, children, Expr.size, Expr.children] <;> omega

end Node

end Reckoner
