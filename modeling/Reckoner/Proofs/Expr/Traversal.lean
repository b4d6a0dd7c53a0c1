/-
Module: Reckoner.Proofs.Expr.Traversal
Layer: Proofs
Purpose: Going through trees with a stack. A round takes the uppermost pending item, hands out what
  it gives, and puts its parts on the stack, the last one first. Whatever else is on the stack, what
  has been handed out together with what recursion gives for the pending items stays the same from
  round to round, and every round deals with one item. So the leaves of a tree and its outline come
  out as recursion on the tree has them. The outline has a line for every node, and the labels of
  the lines that belong to leaves are those of the leaves.
Main exports: Traversal, Tour, Traversal.round, Traversal.promised_round, Traversal.left_round,
  Traversal.round_iterate, Node.leafTraversal, Outline.lineTraversal, Expr.branchesUnder,
  Outline.labelOf, Node.rounds_eq_recursion
-/
import Mathlib.Logic.Function.Iterate
import Reckoner.Expr.Leaves
import Reckoner.Proofs.Expr.Drawing

namespace Reckoner

/-!
### Rounds
-/

/-- A way of going through trees. An item gives something and makes way for its parts, which are
    listed from left to right. What an item gives together with all that is under it is said by
    recursion, and so is how many items these are. -/
structure Traversal (α β : Type) where
  gives : α → List β
  parts : α → List α
  whole : α → List β
  size : α → Nat
  whole_eq : ∀ item, whole item = gives item ++ (parts item).flatMap whole
  size_eq : ∀ item, size item = ((parts item).map size).sum + 1

/-- The items that are pending, the uppermost one at the front, and what has been handed out. -/
structure Tour (α β : Type) where
  pending : List α
  given : List β

namespace Traversal

variable {α β : Type}

def start (item : α) : Tour α β :=
  ⟨[item], []⟩

/-- Puts items on a stack one after the other, the last one first. -/
def stacked (items stack : List α) : List α :=
  items.reverse.foldl (fun stack item => item :: stack) stack

/-- Items that are put on a stack lie on it from left to right. -/
theorem stacked_eq (items stack : List α) : stacked items stack = items ++ stack := by
  rw [stacked, List.foldl_reverse, List.foldr_cons_eq_append, List.map_id']

variable (t : Traversal α β)

/-- One round. When nothing is pending nothing happens. -/
def round (tour : Tour α β) : Tour α β :=
  match tour.pending with
  | [] => tour
  | item :: pending => ⟨stacked (t.parts item) pending, tour.given ++ t.gives item⟩

/-- What has been handed out and what recursion gives for the pending items. -/
def promised (tour : Tour α β) : List β :=
  tour.given ++ tour.pending.flatMap t.whole

/-- The number of items that are pending or under pending ones. -/
def left (tour : Tour α β) : Nat :=
  (tour.pending.map t.size).sum

/-- A round keeps what is promised, whatever is on the stack. -/
theorem promised_round (tour : Tour α β) : t.promised (t.round tour) = t.promised tour := by
  obtain ⟨pending, given⟩ := tour
  cases pending with
  | nil => rfl
  | cons item pending =>
      simp only [round, promised, stacked_eq, List.flatMap_append, List.flatMap_cons,
        t.whole_eq item, List.append_assoc]

theorem left_round {tour : Tour α β} (h : tour.pending ≠ []) :
    t.left (t.round tour) + 1 = t.left tour := by
  obtain ⟨pending, given⟩ := tour
  cases pending with
  | nil => exact absurd rfl h
  | cons item pending =>
      simp only [round, left, stacked_eq, List.map_append, List.sum_append, List.map_cons,
        List.sum_cons, t.size_eq item]
      omega

/-- Items are pending exactly if there is something left to do. -/
theorem pending_eq_nil_iff (tour : Tour α β) : tour.pending = [] ↔ t.left tour = 0 := by
  obtain ⟨pending, given⟩ := tour
  cases pending with
  | nil => exact iff_of_true rfl rfl
  | cons item pending =>
      have hsize := t.size_eq item
      simp only [left, List.map_cons, List.sum_cons]
      exact iff_of_false (List.cons_ne_nil _ _) (by omega)

theorem promised_iterate (count : Nat) (tour : Tour α β) :
    t.promised (t.round^[count] tour) = t.promised tour := by
  induction count with
  | zero => rfl
  | succ count ih => rw [Function.iterate_succ_apply', promised_round, ih]

/-- As long as something is left every round deals with one more item. -/
theorem left_iterate {count : Nat} {tour : Tour α β} (h : count ≤ t.left tour) :
    t.left (t.round^[count] tour) + count = t.left tour := by
  induction count with
  | zero => rfl
  | succ count ih =>
      have hbefore := ih (Nat.le_of_succ_le h)
      have hpending : (t.round^[count] tour).pending ≠ [] := by
        rw [ne_eq, t.pending_eq_nil_iff]
        omega
      have hround := t.left_round hpending
      rw [Function.iterate_succ_apply']
      omega

/-- From every stack the rounds come to an end, after as many rounds as there are items and not
    before, and what has been handed out then is what was promised. -/
theorem round_iterate (tour : Tour α β) :
    (∀ count < t.left tour, (t.round^[count] tour).pending ≠ []) ∧
      t.round^[t.left tour] tour = ⟨[], t.promised tour⟩ := by
  constructor
  · intro count hcount
    have hleft := t.left_iterate (Nat.le_of_lt hcount)
    rw [ne_eq, t.pending_eq_nil_iff]
    omega
  · have hleft := t.left_iterate (Nat.le_refl (t.left tour))
    have hpromised := t.promised_iterate (t.left tour) tour
    have hpending : (t.round^[t.left tour] tour).pending = [] := by
      rw [t.pending_eq_nil_iff]
      omega
    revert hpending hpromised
    generalize t.round^[t.left tour] tour = last
    obtain ⟨pending, given⟩ := last
    rintro hpromised rfl
    rw [← hpromised, promised, List.flatMap_nil, List.append_nil]

/-- From a single item the rounds come to what recursion gives for it, after as many rounds as there
    are items. -/
theorem round_iterate_start (item : α) :
    (∀ count < t.size item, (t.round^[count] (start item)).pending ≠ []) ∧
      t.round^[t.size item] (start item) = ⟨[], t.whole item⟩ := by
  have hleft : t.left (start item) = t.size item := Nat.add_zero _
  have hpromised : t.promised (start item) = t.whole item := List.flatMap_singleton t.whole item
  have hrounds := t.round_iterate (start item)
  rwa [hleft, hpromised] at hrounds

end Traversal

/-!
### Leaves
-/

namespace Node

theorem totalSize_eq_sum (nodes : List Node) : totalSize nodes = (nodes.map size).sum := by
  induction nodes with
  | nil => rfl
  | cons n nodes ih => rw [totalSize_cons, ih, List.map_cons, List.sum_cons]

/-- Going through trees for their leaves: a token gives itself and an expression nothing. -/
def leafTraversal : Traversal Node Token where
  gives
    | leaf token => [token]
    | expr _ => []
  parts := children
  whole := leaves
  size := size
  whole_eq
    | leaf _ => rfl
    | expr e => leaves_expr e
  size_eq n := by rw [size_eq, totalSize_eq_sum]

end Node

/-!
### Lines
-/

namespace Outline

def Branch.line (b : Branch) : String :=
  Outline.line b.indent b.isLast b.node

/-- The branches of the children of a branch. The last child is the one with the last number. -/
def Branch.children (b : Branch) : List Branch :=
  b.node.children.zipIdx.map fun child =>
    ⟨deeper b.indent b.isLast, child.2 == b.node.children.length - 1, child.1⟩

/-- Siblings that are numbered on from some number have branches of which the last one is a last
    child. -/
theorem branches_eq_zipIdx (indent : String) (nodes : List Node) (first : Nat) :
    branches indent nodes = (nodes.zipIdx first).map fun child =>
      ⟨indent, child.2 == first + nodes.length - 1, child.1⟩ := by
  fun_induction branches indent nodes generalizing first with
  | case1 => rfl
  | case2 n => simp
  | case3 n others hne ih =>
      have hlength : 0 < others.length := List.length_pos_iff.mpr hne
      have hnumber : (first == first + (others.length + 1) - 1) = false := by
        rw [beq_eq_false_iff_ne]
        omega
      have hlast : first + 1 + others.length - 1 = first + (others.length + 1) - 1 := by omega
      rw [ih (first + 1), List.zipIdx_cons, List.map_cons, List.length_cons, hnumber, hlast]

theorem Branch.children_eq (b : Branch) :
    b.children = branches (deeper b.indent b.isLast) b.node.children := by
  rw [branches_eq_zipIdx _ _ 0, Nat.zero_add]
  rfl

def lineTraversal : Traversal Branch String where
  gives b := [b.line]
  parts := Branch.children
  whole := Branch.lines
  size b := b.node.size
  whole_eq b := by
    rw [lines_eq, Branch.children_eq]
    rfl
  size_eq b := by
    have hnodes : b.children.map (fun child => child.node.size) =
        (b.children.map Branch.node).map Node.size := by
      rw [List.map_map]
      rfl
    rw [hnodes, Branch.children_eq, map_node_branches, ← Node.totalSize_eq_sum, Node.size_eq]

end Outline

/-!
### Lines and nodes
-/

section

open Outline

/-- The branches of the nodes of an expression, its own branch first. -/
def Expr.branchesUnder (indent : String) (isLast : Bool) : Expr → List Branch
  | numeral token =>
      [⟨indent, isLast, .expr (numeral token)⟩, ⟨deeper indent isLast, true, .leaf token⟩]
  | group opening inner closing =>
      let inside := deeper indent isLast
      ⟨indent, isLast, .expr (group opening inner closing)⟩ :: ⟨inside, false, .leaf opening⟩
        :: (inner.branchesUnder inside false ++ [⟨inside, true, .leaf closing⟩])
  | binary left operator right =>
      let inside := deeper indent isLast
      ⟨indent, isLast, .expr (binary left operator right)⟩
        :: (left.branchesUnder inside false
          ++ ⟨inside, false, .leaf operator⟩ :: right.branchesUnder inside true)

/-- The branches of the nodes under a node, its own branch first. -/
def Node.branchesUnder (indent : String) (isLast : Bool) : Node → List Branch
  | leaf token => [⟨indent, isLast, leaf token⟩]
  | expr e => e.branchesUnder indent isLast

variable {indent : String} {isLast : Bool}

/-- Every node of an expression has a line in its outline. -/
theorem Expr.outlineUnder_eq_map (e : Expr) :
    e.outlineUnder indent isLast = (e.branchesUnder indent isLast).map Branch.line := by
  induction e generalizing indent isLast with
  | numeral token => rfl
  | group opening inner closing ih =>
      simp only [outlineUnder, branchesUnder, ih, List.map_cons, List.map_append, List.map_nil,
        Branch.line]
  | binary left operator right ihl ihr =>
      simp only [outlineUnder, branchesUnder, ihl, ihr, List.map_cons, List.map_append, Branch.line]

theorem Expr.length_branchesUnder (e : Expr) : (e.branchesUnder indent isLast).length = e.size := by
  induction e generalizing indent isLast with
  | numeral token => rfl
  | group opening inner closing ih =>
      simp only [branchesUnder, List.length_cons, List.length_append, ih, List.length_nil, size]
  | binary left operator right ihl ihr =>
      simp only [branchesUnder, List.length_cons, List.length_append, ihl, ihr, size]
      omega

theorem Node.outlineUnder_eq_map (n : Node) :
    n.outlineUnder indent isLast = (n.branchesUnder indent isLast).map Branch.line := by
  cases n with
  | leaf token => rfl
  | expr e => exact e.outlineUnder_eq_map

theorem Node.length_branchesUnder (n : Node) : (n.branchesUnder indent isLast).length = n.size := by
  cases n with
  | leaf token => rfl
  | expr e => exact e.length_branchesUnder

end

/-!
### Labels of lines
-/

def Node.isLeaf : Node → Bool
  | leaf _ => true
  | expr _ => false

@[simp] theorem Node.isLeaf_leaf (token : Token) : (leaf token).isLeaf = true := rfl

@[simp] theorem Node.isLeaf_expr (e : Expr) : (expr e).isLeaf = false := rfl

namespace Outline

/-- The characters that indents and markers are made of. -/
def isFrame (c : Char) : Bool :=
  c = ' ' || c = '│' || c = '├' || c = '└' || c = '─'

/-- What stands in a line behind its indent and its marker. -/
def labelOf (line : String) : String :=
  String.ofList (line.toList.dropWhile isFrame)

/-- An indent or a marker: a text in which nothing else occurs. -/
def Framing (text : String) : Prop :=
  ∀ c ∈ text.toList, isFrame c = true

theorem framing_marker (isLast : Bool) : Framing (marker isLast) := by
  intro c hmem
  have hcases : c = '├' ∨ c = '└' ∨ c = '─' := by
    cases isLast <;> simp [marker] at hmem <;> tauto
  rcases hcases with rfl | rfl | rfl <;> rfl

theorem Framing.deeper {indent : String} (h : Framing indent) (isLast : Bool) :
    Framing (deeper indent isLast) := by
  cases isLast <;> simpa [Framing, Outline.deeper, or_imp, forall_and] using ⟨h, by decide⟩

end Outline

/-- A label starts with the name of a kind, and that with a letter. -/
theorem Node.dropWhile_label (n : Node) :
    n.label.toList.dropWhile Outline.isFrame = n.label.toList := by
  have hname : ∀ (kind : Kind) (rest : List Char),
      (kind.name.toList ++ rest).dropWhile Outline.isFrame = kind.name.toList ++ rest := by
    intro kind rest
    cases kind <;> rfl
  cases n with
  | expr e =>
      have hkind := hname e.kind []
      rwa [List.append_nil] at hkind
  | leaf token =>
      cases hvalue : token.value with
      | none => simpa [label_of_none hvalue] using hname token.kind []
      | some value =>
          rw [label_of_some hvalue, String.append_assoc, String.toList_append]
          exact hname token.kind _

namespace Outline

theorem labelOf_line {indent : String} (h : Framing indent) (isLast : Bool) (n : Node) :
    labelOf (line indent isLast n) = n.label := by
  have hframe : ∀ c ∈ (indent ++ marker isLast).toList, isFrame c = true := by
    rw [String.toList_append]
    exact List.forall_mem_append.mpr ⟨h, framing_marker isLast⟩
  rw [labelOf, line, String.toList_append, List.dropWhile_append_of_pos hframe, n.dropWhile_label,
    String.ofList_toList]

end Outline

/-- When the lines of expressions are dropped from an outline, the labels of the lines that remain
    are those of the leaves. -/
theorem Expr.map_labelOf_branchesUnder {indent : String} (h : Outline.Framing indent) (isLast : Bool)
    (e : Expr) :
    ((e.branchesUnder indent isLast).filter fun b => b.node.isLeaf).map
      (fun b => Outline.labelOf b.line) = e.leaves.map fun token => (Node.leaf token).label := by
  induction e generalizing indent isLast with
  | numeral token =>
      have hlabel := Outline.labelOf_line (h.deeper isLast)
      simp [branchesUnder, leaves, List.filter_cons, Outline.Branch.line, hlabel]
  | group opening inner closing ih =>
      have hlabel := Outline.labelOf_line (h.deeper isLast)
      have hinner := ih (h.deeper isLast) false
      simp only [Outline.Branch.line] at hinner
      simp [branchesUnder, leaves, List.filter_cons, Outline.Branch.line, hlabel, hinner]
  | binary left operator right ihl ihr =>
      have hlabel := Outline.labelOf_line (h.deeper isLast)
      have hleft := ihl (h.deeper isLast) false
      have hright := ihr (h.deeper isLast) true
      simp only [Outline.Branch.line] at hleft hright
      simp [branchesUnder, leaves, List.filter_cons, Outline.Branch.line, hlabel, hleft, hright]

namespace Node

/-- Going through the tree under a node with a stack ends, after as many rounds as there are nodes
    and not before, and hands out what recursion gives. Recursion lists the leaves of the children
    one child after the other; and it draws the line of the node, which is its indent, its marker
    and its label, and below it the children in order, under an indent that tells whether the node
    is a last child. So the outline has a line for every node; and the labels of the lines that are
    left when those of expressions are dropped are the labels of the leaves. -/
theorem rounds_eq_recursion (n : Node) :
    ((∀ count < n.size, (leafTraversal.round^[count] (Traversal.start n)).pending ≠ []) ∧
        leafTraversal.round^[n.size] (Traversal.start n) = ⟨[], n.leaves⟩ ∧
        pending [n] = n.leaves ∧
        (∀ e, (expr e).leaves = e.children.flatMap leaves) ∧
        ∀ token, (leaf token).leaves = [token]) ∧
      ((∀ count < n.size,
          (Outline.lineTraversal.round^[count] (Traversal.start ⟨"", true, n⟩)).pending ≠ []) ∧
        Outline.lineTraversal.round^[n.size] (Traversal.start ⟨"", true, n⟩) =
          ⟨[], n.outlineUnder "" true⟩ ∧
        n.outline = n.outlineUnder "" true ∧
        ∀ indent isLast, n.outlineUnder indent isLast =
          (indent ++ (if isLast then "└──" else "├──") ++ n.label) ::
            n.children.zipIdx.flatMap fun child =>
              child.1.outlineUnder (indent ++ if isLast then "   " else "│  ")
                (child.2 == n.children.length - 1)) ∧
      ((("\n".intercalate n.outline).toList.splitOn '\n').length = n.size ∧
        n.outline = (n.branchesUnder "" true).map Outline.Branch.line ∧
        ((n.branchesUnder "" true).filter fun b => b.node.isLeaf).map
            (fun b => Outline.labelOf b.line) =
          n.leaves.map fun token => (leaf token).label) := by
  obtain ⟨hleafpending, hleaves⟩ := leafTraversal.round_iterate_start n
  obtain ⟨hlinepending, hlines⟩ := Outline.lineTraversal.round_iterate_start ⟨"", true, n⟩
  have houtline : n.outline = (n.branchesUnder "" true).map Outline.Branch.line := by
    rw [outline_eq, outlineUnder_eq_map]
  refine ⟨⟨hleafpending, hleaves, ?_, leaves_expr, fun _ => rfl⟩,
    ⟨hlinepending, hlines, n.outline_eq, ?_⟩, ?_, houtline, ?_⟩
  · rw [pending_eq, List.flatMap_singleton]
  · intro indent isLast
    let b : Outline.Branch := ⟨indent, isLast, n⟩
    have hwhole : b.lines = b.line :: b.children.flatMap Outline.Branch.lines :=
      Outline.lineTraversal.whole_eq b
    rw [Outline.Branch.children, List.flatMap_map] at hwhole
    exact hwhole
  · obtain ⟨hbreaks, hne⟩ := n.outline_lines
    rw [Outline.splitOn_intercalate hbreaks hne, List.length_map, houtline, List.length_map,
      length_branchesUnder]
  · have hempty : Outline.Framing "" := by simp [Outline.Framing]
    cases n with
    | leaf token =>
        have hlabel := Outline.labelOf_line hempty true (leaf token)
        simpa [branchesUnder, leaves, List.filter_cons, Outline.Branch.line] using hlabel
    | expr e => exact e.map_labelOf_branchesUnder hempty true

end Node

end Reckoner
