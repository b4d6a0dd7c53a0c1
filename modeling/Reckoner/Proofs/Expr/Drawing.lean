/-
Module: Reckoner.Proofs.Expr.Drawing
Layer: Proofs
Purpose: An outline tells a tree. The lines under a node are those that start with the indent of its
  children, so they end where a line does not; and a label tells the kind of a node and the value of a
  token. So the outline of a tree can be taken apart again, and trees with the same outline differ in
  the places and the texts of their tokens only, of which the outline says nothing.
Main exports: Token.labelled, Node.map, Node.label_leaf_inj, Outline.Beyond, Outline.exists_below,
  Expr.outlineUnder_append_cancel, Node.outlineUnder_append_cancel, Node.drawing_eq_iff
-/
import Mathlib
import Reckoner.Expr.Outline
import Reckoner.Proofs.Expr.Relabel

namespace Reckoner

/-!
### Labels
-/

/-- A token reduced to what its label tells: its kind and its value. -/
def Token.labelled (token : Token) : Token :=
  { token with position := 0, text := "" }

/-- Tokens are the same to their labels exactly if they have the same kind and the same value. -/
theorem Token.labelled_inj {token other : Token} :
    token.labelled = other.labelled ↔ token.kind = other.kind ∧ token.value = other.value := by
  simp [labelled]

def Node.map (f : Token → Token) : Node → Node
  | leaf token => leaf (f token)
  | expr e => expr (e.map f)

namespace Kind

theorem name_inj {kind other : Kind} : kind.name = other.name ↔ kind = other := by
  constructor
  · intro h
    have hsame : some kind = some other := by rw [← ofName?_name kind, h, ofName?_name]
    exact Option.some.inj hsame
  · exact congrArg name

/-- There are neither blanks nor line breaks in the name of a kind. -/
theorem not_mem_name (kind : Kind) : ' ' ∉ kind.name.toList ∧ '\n' ∉ kind.name.toList := by
  cases kind <;> decide

end Kind

namespace Node

theorem label_of_none {token : Token} (h : token.value = none) :
    (leaf token).label = token.kind.name := by
  simp only [label, h]

theorem label_of_some {token : Token} {value : Int} (h : token.value = some value) :
    (leaf token).label = token.kind.name ++ " " ++ value.repr := by
  simp only [label, h]
  rfl

/-- The label of a token with a value is no name of a kind. -/
theorem label_ne_name {token : Token} {value : Int} (h : token.value = some value) (kind : Kind) :
    (leaf token).label ≠ kind.name := by
  intro hlabel
  have hblank : ' ' ∈ (leaf token).label.toList := by simp [label_of_some h]
  rw [hlabel] at hblank
  exact kind.not_mem_name.1 hblank

/-- Tokens have the same label exactly if they have the same kind and the same value. -/
theorem label_leaf_inj {token other : Token} :
    (leaf token).label = (leaf other).label ↔ token.labelled = other.labelled := by
  rw [Token.labelled_inj]
  cases hvalue : token.value with
  | none =>
      cases hother : other.value with
      | none => simp [label_of_none hvalue, label_of_none hother, Kind.name_inj]
      | some value =>
          simpa [label_of_none hvalue] using (label_ne_name hother token.kind).symm
  | some value =>
      cases hother : other.value with
      | none => simpa [label_of_none hother] using label_ne_name hvalue other.kind
      | some word =>
          -- Only numbers have values, so the labels start with the same name.
          have hkind : token.kind = other.kind := by
            rw [Token.kind_of_value hvalue, Token.kind_of_value hother]
          rw [label_of_some hvalue, label_of_some hother, hkind, String.append_right_inj,
            Int.repr_inj, Option.some.injEq, and_iff_right rfl]

theorem label_expr_inj {e other : Expr} :
    (expr e).label = (expr other).label ↔ e.kind = other.kind :=
  Kind.name_inj

end Node

/-!
### Lines
-/

namespace Outline

/-- Lines at the same place are the same if their labels are. -/
theorem line_inj {indent : String} {isLast : Bool} {n other : Node} :
    line indent isLast n = line indent isLast other ↔ n.label = other.label := by
  rw [line, line, String.append_right_inj]

/-- The first of some lines, if there is one, does not start with an indent. -/
def Beyond (indent : String) (lines : List String) : Prop :=
  ∀ first ∈ lines.head?, ¬ indent.toList <+: first.toList

theorem beyond_nil (indent : String) : Beyond indent [] := by
  simp [Beyond]

/-- The line of a sibling does not start with the indent of the children of a node. -/
theorem beyond_line (indent : String) (isLast isLastSibling : Bool) (sibling : Node)
    (lines : List String) :
    Beyond (deeper indent isLast) (line indent isLastSibling sibling :: lines) := by
  intro first hfirst
  obtain rfl : line indent isLastSibling sibling = first := by simpa using hfirst
  rw [deeper, line, String.append_assoc, String.toList_append, String.toList_append,
    List.prefix_append_right_inj]
  -- A segment of an indent starts with a blank or a pipe, and no marker does.
  cases isLast <;> cases isLastSibling <;> simp [marker, String.toList_append, List.prefix_cons_iff]

/-- Lines that do not start with an indent do not start with a deeper one. -/
theorem Beyond.deeper {indent : String} {lines : List String} (h : Beyond indent lines)
    (isLast : Bool) : Beyond (deeper indent isLast) lines := by
  intro first hfirst hprefix
  apply h first hfirst
  rw [Outline.deeper, String.toList_append] at hprefix
  exact (List.prefix_append _ _).trans hprefix

/-- The lines of an expression are its own line and further lines, of which the first starts with the
    indent of its children. -/
theorem exists_below (indent : String) (isLast : Bool) (e : Expr) :
    ∃ below, e.outlineUnder indent isLast = line indent isLast (.expr e) :: below ∧
      ∃ first others, below = first :: others ∧
        (deeper indent isLast).toList <+: first.toList := by
  have hline : ∀ isLastChild child,
      (deeper indent isLast).toList <+: (line (deeper indent isLast) isLastChild child).toList := by
    intro isLastChild child
    rw [line, String.append_assoc, String.toList_append]
    exact List.prefix_append _ _
  cases e with
  | numeral token => exact ⟨_, rfl, _, _, rfl, hline true (.leaf token)⟩
  | group opening inner closing => exact ⟨_, rfl, _, _, rfl, hline false (.leaf opening)⟩
  | binary left operator right =>
      cases left with
      | numeral token => exact ⟨_, rfl, _, _, rfl, hline false _⟩
      | group opening inner closing => exact ⟨_, rfl, _, _, rfl, hline false _⟩
      | binary l o r => exact ⟨_, rfl, _, _, rfl, hline false _⟩

end Outline

/-!
### Outlines
-/

section

variable {indent : String} {isLast : Bool} {rest others : List String}

open Outline

/-- Expressions whose outlines start with the same line are of the same kind. -/
theorem Expr.kind_eq_of_outlineUnder {e other : Expr}
    (h : e.outlineUnder indent isLast ++ rest = other.outlineUnder indent isLast ++ others) :
    e.kind = other.kind := by
  obtain ⟨below, hbelow, -⟩ := exists_below indent isLast e
  obtain ⟨beneath, hbeneath, -⟩ := exists_below indent isLast other
  rw [hbelow, hbeneath, List.cons_append, List.cons_append, List.cons.injEq, line_inj] at h
  exact Node.label_expr_inj.mp h.1

/-- The outlines of two expressions at the same place, each with lines behind it that do not belong to
    it, are the same only if the expressions have the same nodes and the lines behind are the same. The
    induction is on the one expression. The lines of a child end where its next sibling has its line,
    and those of the last child where the lines of the node end. -/
theorem Expr.outlineUnder_append_cancel {e other : Expr} (hrest : Beyond (deeper indent isLast) rest)
    (hothers : Beyond (deeper indent isLast) others)
    (h : e.outlineUnder indent isLast ++ rest = other.outlineUnder indent isLast ++ others) :
    e.map Token.labelled = other.map Token.labelled ∧ rest = others := by
  induction e generalizing other indent isLast rest others with
  | numeral token =>
      have hkind := kind_eq_of_outlineUnder h
      cases other with
      | numeral token' =>
          simp only [outlineUnder, List.cons_append, List.nil_append, List.cons.injEq, line_inj,
            Node.label_leaf_inj] at h
          obtain ⟨-, htoken, hsame⟩ := h
          exact ⟨congrArg numeral htoken, hsame⟩
      | _ => exact absurd hkind (by simp [kind])
  | group opening inner closing ih =>
      have hkind := kind_eq_of_outlineUnder h
      cases other with
      | group opening' inner' closing' =>
          simp only [outlineUnder, List.cons_append, List.append_assoc, List.nil_append,
            List.cons.injEq, line_inj, Node.label_leaf_inj] at h
          obtain ⟨-, hopening, hcontent⟩ := h
          obtain ⟨hinner, hbehind⟩ := ih (beyond_line _ _ _ _ _) (beyond_line _ _ _ _ _) hcontent
          rw [List.cons.injEq, line_inj, Node.label_leaf_inj] at hbehind
          exact ⟨by rw [map, map, hopening, hinner, hbehind.1], hbehind.2⟩
      | _ => exact absurd hkind (by simp [kind])
  | binary left operator right ihl ihr =>
      have hkind := kind_eq_of_outlineUnder h
      cases other with
      | binary left' operator' right' =>
          simp only [outlineUnder, List.cons_append, List.append_assoc, List.cons.injEq] at h
          obtain ⟨-, hoperands⟩ := h
          obtain ⟨hleft, hbehind⟩ := ihl (beyond_line _ _ _ _ _) (beyond_line _ _ _ _ _) hoperands
          rw [List.cons.injEq, line_inj, Node.label_leaf_inj] at hbehind
          obtain ⟨hoperator, hlast⟩ := hbehind
          obtain ⟨hright, hsame⟩ := ihr (hrest.deeper true) (hothers.deeper true) hlast
          exact ⟨by rw [map, map, hleft, hoperator, hright], hsame⟩
      | _ => exact absurd hkind (by simp [kind])

/-- The line of a token on its own is not the outline of an expression: behind it there is no line
    with the indent of its children. -/
theorem Expr.outlineUnder_ne_leaf {e : Expr} {token : Token}
    (hrest : Beyond (deeper indent isLast) rest) :
    line indent isLast (.leaf token) :: rest ≠ e.outlineUnder indent isLast ++ others := by
  intro h
  obtain ⟨below, hbelow, first, further, rfl, hfirst⟩ := exists_below indent isLast e
  rw [hbelow, List.cons_append, List.cons_append, List.cons.injEq] at h
  obtain ⟨-, rfl⟩ := h
  exact hrest first (by simp) hfirst

/-- The same for nodes, tokens and expressions of any kinds. -/
theorem Node.outlineUnder_append_cancel {n other : Node} (hrest : Beyond (deeper indent isLast) rest)
    (hothers : Beyond (deeper indent isLast) others)
    (h : n.outlineUnder indent isLast ++ rest = other.outlineUnder indent isLast ++ others) :
    n.map Token.labelled = other.map Token.labelled ∧ rest = others := by
  cases n with
  | leaf token =>
      cases other with
      | leaf token' =>
          simp only [outlineUnder, List.cons_append, List.nil_append, List.cons.injEq, line_inj,
            label_leaf_inj] at h
          exact ⟨congrArg leaf h.1, h.2⟩
      | expr e => exact absurd h (Expr.outlineUnder_ne_leaf hrest)
  | expr e =>
      cases other with
      | leaf token => exact absurd h.symm (Expr.outlineUnder_ne_leaf hothers)
      | expr e' =>
          obtain ⟨hsame, hbehind⟩ := Expr.outlineUnder_append_cancel hrest hothers h
          exact ⟨congrArg expr hsame, hbehind⟩

end

/-!
### Drawings
-/

theorem Node.not_mem_label (n : Node) : '\n' ∉ n.label.toList := by
  cases n with
  | expr e => exact e.kind.not_mem_name.2
  | leaf token =>
      cases hvalue : token.value with
      | none =>
          rw [label_of_none hvalue]
          exact token.kind.not_mem_name.2
      | some value =>
          have hdigits : ∀ n : Nat, '\n' ∉ n.repr.toList := by
            intro n hmem
            rw [Nat.toList_repr] at hmem
            exact absurd (Nat.isDigit_of_mem_toDigits (by decide) (by decide) hmem) (by decide)
          have hnumeral : '\n' ∉ value.repr.toList := by
            cases value with
            | ofNat n => exact hdigits n
            | negSucc n => simpa [Int.repr] using hdigits (n + 1)
          simp [label_of_some hvalue, token.kind.not_mem_name.2, hnumeral]

namespace Outline

theorem not_mem_deeper {indent : String} (h : '\n' ∉ indent.toList) (isLast : Bool) :
    '\n' ∉ (deeper indent isLast).toList := by
  cases isLast <;> simp [deeper, h]

theorem not_mem_line {indent : String} (h : '\n' ∉ indent.toList) (isLast : Bool) (n : Node) :
    '\n' ∉ (line indent isLast n).toList := by
  cases isLast <;> simp [line, marker, h, n.not_mem_label]

/-- Lines without line breaks are what the text that is made of them splits into. -/
theorem splitOn_intercalate {lines : List String} (hlines : ∀ l ∈ lines, '\n' ∉ l.toList)
    (hne : lines ≠ []) :
    ("\n".intercalate lines).toList.splitOn '\n' = lines.map String.toList := by
  rw [String.toList_intercalate]
  exact List.splitOn_intercalate '\n' (by simpa using hlines) (by simpa using hne)

/-- Lines without line breaks can be told from the text that is made of them. -/
theorem intercalate_inj {lines others : List String} (hlines : ∀ l ∈ lines, '\n' ∉ l.toList)
    (hne : lines ≠ []) (hothers : ∀ l ∈ others, '\n' ∉ l.toList) (hnone : others ≠ []) :
    "\n".intercalate lines = "\n".intercalate others ↔ lines = others := by
  constructor
  · intro h
    have hsame : lines.map String.toList = others.map String.toList := by
      rw [← splitOn_intercalate hlines hne, h, splitOn_intercalate hothers hnone]
    exact List.map_injective_iff.mpr (fun _ _ => String.toList_inj.mp) hsame
  · rintro rfl
    rfl

end Outline

namespace Expr

/-- There are no line breaks in the lines of an expression. -/
theorem not_mem_outlineUnder {indent : String} (h : '\n' ∉ indent.toList) (isLast : Bool) (e : Expr) :
    ∀ l ∈ e.outlineUnder indent isLast, '\n' ∉ l.toList := by
  have hinside := Outline.not_mem_deeper h isLast
  induction e generalizing indent isLast with
  | numeral token =>
      simp only [outlineUnder, List.forall_mem_cons]
      exact ⟨Outline.not_mem_line h _ _, Outline.not_mem_line hinside _ _, by simp⟩
  | group opening inner closing ih =>
      simp only [outlineUnder, List.forall_mem_cons, List.forall_mem_append]
      exact ⟨Outline.not_mem_line h _ _, Outline.not_mem_line hinside _ _,
        ih hinside _ (Outline.not_mem_deeper hinside _), Outline.not_mem_line hinside _ _, by simp⟩
  | binary left operator right ihl ihr =>
      simp only [outlineUnder, List.forall_mem_cons, List.forall_mem_append]
      exact ⟨Outline.not_mem_line h _ _, ihl hinside _ (Outline.not_mem_deeper hinside _),
        Outline.not_mem_line hinside _ _, ihr hinside _ (Outline.not_mem_deeper hinside _)⟩

/-- Nothing of a token is drawn but its kind and its value. -/
theorem outlineUnder_map (indent : String) (isLast : Bool) (e : Expr) :
    (e.map Token.labelled).outlineUnder indent isLast = e.outlineUnder indent isLast := by
  have hleaf : ∀ indent isLast token, Outline.line indent isLast (.leaf token.labelled) =
      Outline.line indent isLast (.leaf token) := by
    intro indent isLast token
    exact Outline.line_inj.mpr (Node.label_leaf_inj.mpr rfl)
  -- What remains is the line of the root, which is the same by its kind.
  induction e generalizing indent isLast with
  | numeral token =>
      simp only [map, outlineUnder, hleaf]
      rfl
  | group opening inner closing ih =>
      simp only [map, outlineUnder, hleaf, ih]
      rfl
  | binary left operator right ihl ihr =>
      simp only [map, outlineUnder, hleaf, ihl, ihr]
      rfl

end Expr

namespace Node

/-- An outline is drawn from the root on, without an indent. -/
theorem outline_eq (n : Node) : n.outline = n.outlineUnder "" true := by
  rw [outline, Outline.draw_eq, List.flatMap_singleton]
  rfl

/-- An outline has lines, and none of them has a line break in it. -/
theorem outline_lines (n : Node) : (∀ l ∈ n.outline, '\n' ∉ l.toList) ∧ n.outline ≠ [] := by
  have hempty : '\n' ∉ "".toList := by decide
  rw [outline_eq]
  cases n with
  | leaf token =>
      refine ⟨?_, by simp [outlineUnder]⟩
      simpa [outlineUnder] using Outline.not_mem_line hempty true (.leaf token)
  | expr e =>
      obtain ⟨below, hbelow, -⟩ := Outline.exists_below "" true e
      exact ⟨e.not_mem_outlineUnder hempty true, by simp [outlineUnder, hbelow]⟩

/-- The drawings of two nodes are the same text exactly if the nodes are the same but for the places
    and the texts of their tokens. The nodes may be tokens or expressions that no line has, and their
    tokens may be of any kinds, those of expressions included. -/
theorem drawing_eq_iff (n other : Node) :
    "\n".intercalate n.outline = "\n".intercalate other.outline ↔
      n.map Token.labelled = other.map Token.labelled := by
  obtain ⟨hlines, hne⟩ := n.outline_lines
  obtain ⟨hothers, hnone⟩ := other.outline_lines
  rw [Outline.intercalate_inj hlines hne hothers hnone, outline_eq, outline_eq]
  constructor
  · intro h
    have hbehind : n.outlineUnder "" true ++ [] = other.outlineUnder "" true ++ [] := by rw [h]
    exact (outlineUnder_append_cancel (Outline.beyond_nil _) (Outline.beyond_nil _) hbehind).1
  · intro h
    have hdrawn : ∀ n : Node, (n.map Token.labelled).outlineUnder "" true = n.outlineUnder "" true := by
      intro n
      cases n with
      | leaf token => exact congrArg (· :: []) (Outline.line_inj.mpr (label_leaf_inj.mpr rfl))
      | expr e => exact e.outlineUnder_map "" true
    rw [← hdrawn n, h, hdrawn]

end Node

end Reckoner
