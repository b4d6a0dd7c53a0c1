/-
Module: Reckoner.Proofs.Expr.Parts
Layer: Proofs
Purpose: The nodes of a tree, each with the number of groups around it, and the groups that are
  hollow: those that 128 others enclose, which hold an empty number in the place of what stands
  between their parentheses. What is between the parentheses of hollow groups is told by places
  alone, and so is which tokens lie outside of them.
Main exports: Part, Expr.parts, Expr.exists_part_of_mem_children, Expr.hollows, within, Token.solid,
  Token.outside, Token.flatMap_text_solid
-/
import Reckoner.Expr.Leaves

namespace Reckoner

/-!
### Nodes and hollow groups
-/

/-- A node of a tree, with the number of groups of the tree that enclose it. -/
structure Part where
  node : Node
  depth : Nat

namespace Expr

/-- The nodes of a tree, from its root on, given the number of groups around the tree. A group
    encloses its parentheses and its content, and not itself. -/
def parts : Expr → Nat → List Part
  | numeral token, depth => [⟨.expr (numeral token), depth⟩, ⟨.leaf token, depth⟩]
  | group opening inner closing, depth =>
      ⟨.expr (group opening inner closing), depth⟩ :: ⟨.leaf opening, depth + 1⟩ ::
        (inner.parts (depth + 1) ++ [⟨.leaf closing, depth + 1⟩])
  | binary left operator right, depth =>
      ⟨.expr (binary left operator right), depth⟩ ::
        (left.parts depth ++ ⟨.leaf operator, depth⟩ :: right.parts depth)

/-- The groups of a tree that are enclosed by 128 others and whose closing parenthesis is not
    missing, each given by its parentheses. -/
def hollows : Expr → Nat → List (Token × Token)
  | numeral _, _ => []
  | group opening inner closing, depth =>
      (if depth = 128 ∧ closing.text ≠ "" then [(opening, closing)] else []) ++
        inner.hollows (depth + 1)
  | binary left _ right, depth => left.hollows depth ++ right.hollows depth

theorem mem_parts_self (e : Expr) (depth : Nat) : ⟨.expr e, depth⟩ ∈ e.parts depth := by
  cases e <;> exact List.mem_cons_self

/-- With a node its children are parts of a tree, so none of its nodes is left out. -/
theorem exists_part_of_mem_children {e : Expr} {depth : Nat} {part : Part}
    (h : part ∈ e.parts depth) {child : Node} (hchild : child ∈ part.node.children) :
    ∃ inside, ⟨child, inside⟩ ∈ e.parts depth := by
  induction e generalizing depth with
  | numeral token =>
      obtain rfl | rfl : part = ⟨.expr (numeral token), depth⟩ ∨ part = ⟨.leaf token, depth⟩ := by
        simpa [parts] using h
      · obtain rfl : child = .leaf token := by simpa [Node.children, children] using hchild
        exact ⟨depth, .tail _ List.mem_cons_self⟩
      · exact absurd hchild List.not_mem_nil
  | group opening inner closing ih =>
      rw [parts, List.mem_cons, List.mem_cons, List.mem_append, List.mem_singleton] at h
      rcases h with rfl | rfl | hinner | rfl
      · obtain rfl | rfl | rfl : child = .leaf opening ∨ child = .expr inner ∨
            child = .leaf closing := by
          simpa [Node.children, children] using hchild
        · exact ⟨depth + 1, .tail _ List.mem_cons_self⟩
        · exact ⟨depth + 1, .tail _ (.tail _ (List.mem_append_left _ (inner.mem_parts_self _)))⟩
        · exact ⟨depth + 1, .tail _ (.tail _ (List.mem_append_right _ List.mem_cons_self))⟩
      · exact absurd hchild List.not_mem_nil
      · obtain ⟨inside, hmem⟩ := ih hinner
        exact ⟨inside, .tail _ (.tail _ (List.mem_append_left _ hmem))⟩
      · exact absurd hchild List.not_mem_nil
  | binary left operator right ihleft ihright =>
      rw [parts, List.mem_cons, List.mem_append, List.mem_cons] at h
      rcases h with rfl | hleft | rfl | hright
      · obtain rfl | rfl | rfl : child = .expr left ∨ child = .leaf operator ∨
            child = .expr right := by
          simpa [Node.children, children] using hchild
        · exact ⟨depth, .tail _ (List.mem_append_left _ (left.mem_parts_self _))⟩
        · exact ⟨depth, .tail _ (List.mem_append_right _ List.mem_cons_self)⟩
        · exact ⟨depth, .tail _ (List.mem_append_right _ (.tail _ (right.mem_parts_self _)))⟩
      · obtain ⟨inside, hmem⟩ := ihleft hleft
        exact ⟨inside, .tail _ (List.mem_append_left _ hmem)⟩
      · exact absurd hchild List.not_mem_nil
      · obtain ⟨inside, hmem⟩ := ihright hright
        exact ⟨inside, .tail _ (List.mem_append_right _ (.tail _ hmem))⟩

/-- A group that is not hollow has only the hollow groups inside it. -/
theorem hollows_group {opening closing : Token} {inner : Expr} {depth : Nat}
    (hdepth : depth = 128 → closing.text = "") :
    (group opening inner closing).hollows depth = inner.hollows (depth + 1) := by
  rw [hollows, if_neg (fun h => h.2 (hdepth h.1)), List.nil_append]

/-- A hollow group has nothing but an empty number in it. -/
theorem hollows_hollow {opening hole closing : Token} (hclosing : closing.text ≠ "") :
    (group opening (numeral hole) closing).hollows 128 = [(opening, closing)] := by
  rw [hollows, if_pos ⟨rfl, hclosing⟩]
  rfl

end Expr

/-- Whether a place lies strictly between two tokens of some pairs. -/
def within (pairs : List (Token × Token)) (place : Int) : Bool :=
  pairs.any fun pair => pair.1.position < place && place < pair.2.position

/-- The tokens that are not empty. -/
def Token.solid (tokens : List Token) : List Token :=
  tokens.filter fun token => token.text ≠ ""

/-- The tokens that do not start between two tokens of some pairs. -/
def Token.outside (pairs : List (Token × Token)) (tokens : List Token) : List Token :=
  tokens.filter fun token => !within pairs token.position

namespace Part

/-- The groups under a node that are enclosed by 128 others of the whole tree and whose closing
    parenthesis is not missing. -/
def hollows (part : Part) : List (Token × Token) :=
  match part.node with
  | .leaf _ => []
  | .expr e => e.hollows part.depth

/-- The leaves under a node that are not empty. -/
def solid (part : Part) : List Token :=
  Token.solid part.node.leaves

end Part

section

variable {pairs others : List (Token × Token)} {place : Int}

theorem within_append (pairs others : List (Token × Token)) (place : Int) :
    within (pairs ++ others) place = (within pairs place || within others place) :=
  List.any_append

/-- A place is between no tokens if all pairs start there or behind it. -/
theorem within_eq_false_of_le (h : ∀ pair ∈ pairs, place ≤ pair.1.position) :
    within pairs place = false := by
  rw [within, List.any_eq_false]
  intro pair hmem
  have hle := h pair hmem
  simp only [Bool.and_eq_true, decide_eq_true_eq]
  omega

/-- A place is between no tokens if all pairs end there or in front of it. -/
theorem within_eq_false_of_ge (h : ∀ pair ∈ pairs, pair.2.position ≤ place) :
    within pairs place = false := by
  rw [within, List.any_eq_false]
  intro pair hmem
  have hle := h pair hmem
  simp only [Bool.and_eq_true, decide_eq_true_eq]
  omega

end

namespace Token

variable {token : Token} {tokens : List Token}

theorem solid_append (tokens others : List Token) :
    solid (tokens ++ others) = solid tokens ++ solid others :=
  List.filter_append tokens others

theorem solid_cons (token : Token) (tokens : List Token) :
    solid (token :: tokens) = solid [token] ++ solid tokens :=
  solid_append [token] tokens

theorem solid_of_ne (h : token.text ≠ "") : solid [token] = [token] := by
  simp [solid, h]

theorem solid_of_eq (h : token.text = "") : solid [token] = [] := by
  simp [solid, h]

/-- A token is itself, if it is not empty, or nothing. -/
theorem solid_singleton_infix (token : Token) : solid [token] <:+: [token] := by
  by_cases hempty : token.text = ""
  · rw [solid_of_eq hempty]
    exact List.nil_infix
  · have hsame := solid_of_ne hempty
    exact ⟨[], [], by simp [hsame]⟩

/-- The texts of some tokens are those of the tokens that are not empty. -/
theorem flatMap_text_solid (tokens : List Token) :
    (solid tokens).flatMap (fun token => token.text.toList) =
      tokens.flatMap fun token => token.text.toList := by
  induction tokens with
  | nil => rfl
  | cons token tokens ih =>
      rw [solid_cons, List.flatMap_append, ih, List.flatMap_cons]
      by_cases hempty : token.text = ""
      · simp [solid_of_eq hempty, hempty]
      · simp [solid_of_ne hempty]

theorem outside_append (pairs : List (Token × Token)) (tokens others : List Token) :
    outside pairs (tokens ++ others) = outside pairs tokens ++ outside pairs others :=
  List.filter_append tokens others

/-- Tokens none of which starts between the tokens of a pair are all outside. -/
theorem outside_eq_self {pairs : List (Token × Token)}
    (h : ∀ token ∈ tokens, within pairs token.position = false) : outside pairs tokens = tokens := by
  rw [outside, List.filter_eq_self]
  intro token hmem
  rw [h token hmem]
  rfl

/-- Further pairs between which no token starts make no difference. -/
theorem outside_append_left {pairs others : List (Token × Token)}
    (h : ∀ token ∈ tokens, within others token.position = false) :
    outside (pairs ++ others) tokens = outside pairs tokens := by
  refine List.filter_congr fun token hmem => ?_
  rw [within_append, h token hmem, Bool.or_false]

/-- Pairs between which no token starts make no difference to further pairs. -/
theorem outside_append_right {pairs others : List (Token × Token)}
    (h : ∀ token ∈ tokens, within pairs token.position = false) :
    outside (pairs ++ others) tokens = outside others tokens := by
  refine List.filter_congr fun token hmem => ?_
  rw [within_append, h token hmem, Bool.false_or]

end Token

end Reckoner
