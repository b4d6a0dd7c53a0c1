/-
Module: Reckoner.Expr.Assembly
Layer: Trees
Purpose: Building trees by hand from a plan. A plan may ask for anything: unknown kinds, values that
  a token cannot carry, expressions where tokens have to stand and the other way round. Parts are
  built before the whole and from left to right, and the first refusal is the answer.
Main exports: Plan, Refusal, Plan.build
-/
import Reckoner.Expr

namespace Reckoner

/-- A tree to be built. -/
inductive Plan where
  | leaf (kind : String) (position : Int) (text : String) (value : Option Int)
  | numeral (token : Plan)
  | group (opening inner closing : Plan)
  | binary (left operator right : Plan)

/-- Why a part of a plan is refused: the names of the fields that hold the wrong sort of node, or
    the token's own condition on its value. -/
inductive Refusal where
  | fields (names : List String)
  | value (fault : Token.Fault)
deriving DecidableEq, Repr

namespace Node

def token? : Node → Option Token
  | leaf token => some token
  | expr _ => none

def expr? : Node → Option Expr
  | leaf _ => none
  | expr e => some e

end Node

namespace Plan

/-- The name of a field, if what was to fill it is missing. -/
def unfilled {α : Type} (name : String) : Option α → List String
  | some _ => []
  | none => [name]

def buildLeaf (kind : String) (position : Int) (text : String) (value : Option Int) :
    Except Refusal Node :=
  match Kind.ofName? kind with
  | none => .error (.fields ["kind"])
  | some kind =>
      match Token.build kind position text value with
      | .ok token => .ok (.leaf token)
      | .error fault => .error (.value fault)

def buildNumeral (token : Node) : Except Refusal Node :=
  match token.token? with
  | some token => .ok (.expr (.numeral token))
  | none => .error (.fields ["number_token"])

def buildGroup (opening inner closing : Node) : Except Refusal Node :=
  match opening.token?, inner.expr?, closing.token? with
  | some opening, some inner, some closing => .ok (.expr (.group opening inner closing))
  | opening, inner, closing =>
      .error (.fields (unfilled "open_paren_token" opening ++ unfilled "expression" inner
        ++ unfilled "close_paren_token" closing))

/-- Builds a binary expression from its three parts. -/
def buildBinary (left operator right : Node) : Except Refusal Node :=
  match left.expr?, operator.token?, right.expr? with
  | some left, some operator, some right => .ok (.expr (.binary left operator right))
  | left, operator, right =>
      .error (.fields (unfilled "left" left ++ unfilled "operator_token" operator
        ++ unfilled "right" right))

def build : Plan → Except Refusal Node
  | leaf kind position text value => buildLeaf kind position text value
  | numeral token => do
      let token ← token.build
      buildNumeral token
  | group opening inner closing => do
      let opening ← opening.build
      let inner ← inner.build
      let closing ← closing.build
      buildGroup opening inner closing
  | binary left operator right => do
      let left ← left.build
      let operator ← operator.build
      let right ← right.build
      buildBinary left operator right

end Plan

end Reckoner
