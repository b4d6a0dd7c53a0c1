/-
Module: Reckoner.Expr.Outline
Layer: Trees
Purpose: The outline of a tree: one line per node, children under their parent and indented. A
  line holds the indent of its depth, a marker that tells a last child from a middle child, and the
  label of the node. `Node.outlineUnder` says this by recursion on the tree; `Outline.draw` produces
  the same lines with a list of the branches still to be drawn.
Main exports: Node.label, Node.outlineUnder, Outline.draw, Outline.draw_eq, Node.outline
-/
import Reckoner.Expr

namespace Reckoner

/-- The label of a node: its kind, and its value if it is a token that carries one. -/
def Node.label : Node → String
  | .leaf token =>
      match token.value with
      | some value => s!"{token.kind.name} {value}"
      | none => token.kind.name
  | .expr e => e.kind.name

namespace Outline

def marker (isLast : Bool) : String :=
  if isLast then "└──" else "├──"

/-- The indent of the lines under a node. A pipe leads past a node that has siblings below it. -/
def deeper (indent : String) (isLast : Bool) : String :=
  indent ++ if isLast then "   " else "│  "

def line (indent : String) (isLast : Bool) (n : Node) : String :=
  indent ++ marker isLast ++ n.label

end Outline

/-- The lines of an expression that stands under `indent`, its own line first. -/
def Expr.outlineUnder (indent : String) (isLast : Bool) : Expr → List String
  | .numeral token =>
      let inside := Outline.deeper indent isLast
      [Outline.line indent isLast (.expr (.numeral token)),
        Outline.line inside true (.leaf token)]
  | .group opening inner closing =>
      let inside := Outline.deeper indent isLast
      Outline.line indent isLast (.expr (.group opening inner closing))
        :: Outline.line inside false (.leaf opening)
        :: (inner.outlineUnder inside false ++ [Outline.line inside true (.leaf closing)])
  | .binary left operator right =>
      let inside := Outline.deeper indent isLast
      Outline.line indent isLast (.expr (.binary left operator right))
        :: (left.outlineUnder inside false
          ++ Outline.line inside false (.leaf operator)
          :: right.outlineUnder inside true)

/-- The lines of a node that stands under `indent`, its own line first. -/
def Node.outlineUnder (indent : String) (isLast : Bool) : Node → List String
  | .leaf token => [Outline.line indent isLast (.leaf token)]
  | .expr e => e.outlineUnder indent isLast

namespace Outline

/-- A node that is still to be drawn: its indent, whether it is the last child, and the node. -/
structure Branch where
  indent : String
  isLast : Bool
  node : Node

/-- The branches of siblings, of which only the last one is a last child. -/
def branches (indent : String) : List Node → List Branch
  | [] => []
  | [n] => [⟨indent, true, n⟩]
  | n :: others => ⟨indent, false, n⟩ :: branches indent others

/-- The number of nodes under the branches still to be drawn. -/
def totalSize (pending : List Branch) : Nat :=
  Node.totalSize (pending.map Branch.node)

/-- The nodes of the branches of siblings are those siblings. -/
theorem map_node_branches (indent : String) (nodes : List Node) :
    (branches indent nodes).map Branch.node = nodes := by
  fun_induction branches indent nodes with
  | case1 => rfl
  | case2 n => rfl
  | case3 n others _ ih => simp [ih]

/-- The lines of the branches still to be drawn: a branch gives its line and makes way for the
    branches of its children. -/
def draw : List Branch → List String
  | [] => []
  | b :: pending =>
      line b.indent b.isLast b.node
        :: draw (branches (deeper b.indent b.isLast) b.node.children ++ pending)
termination_by pending => totalSize pending
decreasing_by
  have := Node.size_eq b.node
  simp only [totalSize, List.map_append, map_node_branches, Node.totalSize_append, List.map_cons,
    Node.totalSize_cons]
  omega

def Branch.lines (b : Branch) : List String :=
  b.node.outlineUnder b.indent b.isLast

/-- The lines of a node are its own line and those of the branches of its children. -/
theorem lines_eq (b : Branch) :
    b.lines = line b.indent b.isLast b.node
      :: (branches (deeper b.indent b.isLast) b.node.children).flatMap Branch.lines := by
  rcases b with ⟨indent, isLast, n⟩
  cases n with
  | leaf token => rfl
  | expr e =>
      cases e <;>
        simp [Branch.lines, Node.outlineUnder, Expr.outlineUnder, Node.children, Expr.children,
          branches]

/-- The lines of the branches still to be drawn are those of each branch, one after the other. -/
theorem draw_eq (pending : List Branch) : draw pending = pending.flatMap Branch.lines := by
  fun_induction draw pending with
  | case1 => rfl
  | case2 b pending ih => rw [ih, List.flatMap_append, List.flatMap_cons, lines_eq b]; rfl

end Outline

def Node.outline (n : Node) : List String :=
  Outline.draw [⟨"", true, n⟩]

end Reckoner
