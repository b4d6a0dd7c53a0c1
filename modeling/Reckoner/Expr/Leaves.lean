/-
Module: Reckoner.Expr.Leaves
Layer: Trees
Purpose: The leaves of a tree from left to right. `Node.leaves` says what they are by recursion on
  the tree; `Node.pending` finds them with a list of the nodes still to be visited, which needs no
  recursion into the tree and so suits trees of any depth.
Main exports: Expr.leaves, Node.leaves, Node.pending, Node.pending_eq
-/
import Reckoner.Expr

namespace Reckoner

/-- The leaves of an expression from left to right. -/
def Expr.leaves : Expr → List Token
  | .numeral token => [token]
  | .group opening inner closing => opening :: (inner.leaves ++ [closing])
  | .binary left operator right => left.leaves ++ operator :: right.leaves

namespace Node

def leaves : Node → List Token
  | leaf token => [token]
  | expr e => e.leaves

/-- The leaves of the trees still to be visited: a leaf is handed out, and an expression makes way
    for its children. -/
def pending : List Node → List Token
  | [] => []
  | leaf token :: others => token :: pending others
  | expr e :: others => pending (e.children ++ others)
termination_by nodes => totalSize nodes
decreasing_by
  · simp [size]
  · have := size_eq (expr e)
    simp only [children] at this
    simp only [totalSize_append, totalSize_cons]
    omega

/-- The leaves of an expression are those of its children, one child after the other. -/
theorem leaves_expr (e : Expr) : (expr e).leaves = e.children.flatMap leaves := by
  cases e <;> simp [leaves, Expr.leaves, Expr.children]

/-- The leaves of the trees still to be visited are those of each tree, one tree after the other. -/
theorem pending_eq (nodes : List Node) : pending nodes = nodes.flatMap leaves := by
  fun_induction pending nodes with
  | case1 => rfl
  | case2 token others ih => rw [ih, List.flatMap_cons]; rfl
  | case3 e others ih => rw [ih, List.flatMap_append, List.flatMap_cons, leaves_expr]

end Node

end Reckoner
