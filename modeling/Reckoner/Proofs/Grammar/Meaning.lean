/-
Module: Reckoner.Proofs.Grammar.Meaning
Layer: Proofs
Purpose: The value of the tree of a derivation is the meaning of the derivation. The tree is
  evaluated by recursion on its binary nodes, the meaning goes along each row; they meet because the
  tree of a row is the row folded to the left, and evaluating a fold is folding the evaluation. The
  first division by zero that is met is the same one.
Main exports: Grammar.wrap_eq_reduce, Chain.value_tree, Grammar.value_tree
-/
import Reckoner.Expr.Value
import Reckoner.Proofs.Grammar
import Reckoner.Proofs.Token.Faultless

namespace Reckoner.Grammar

def toOutcome (meaning : Except Int Int) : Except Fault Int :=
  meaning.mapError .divisionByZero

@[simp] theorem toOutcome_ok (value : Int) : toOutcome (.ok value) = .ok value := rfl

@[simp] theorem toOutcome_error (position : Int) :
    toOutcome (.error position) = .error (.divisionByZero position) := rfl

/-!
### Operators
-/

/-- Wrapping is keeping the last 32 bits. -/
theorem wrap_eq_reduce (value : Int) : Word.wrap value = reduce value := by
  rw [reduce, BitVec.toInt_ofInt, Int.bmod_def, Word.wrap, Word.least]
  omega

theorem apply_eq_sum {operator : Token} (h : operator.kind.isAdditive = true) (left right : Int) :
    Operator.apply operator left right = toOutcome (sum operator left right) := by
  unfold Operator.apply sum
  cases hkind : operator.kind with
  | plus => simp [wrap_eq_reduce]
  | minus => simp [wrap_eq_reduce]
  | _ =>
      rw [hkind] at h
      exact absurd h (by decide)

/-- The operators that join factors multiply or divide. -/
theorem apply_eq_product {operator : Token} (h : operator.kind.isMultiplicative = true)
    (left right : Int) :
    Operator.apply operator left right = toOutcome (product operator left right) := by
  unfold Operator.apply product
  cases hkind : operator.kind with
  | star => simp [wrap_eq_reduce]
  | slash =>
      by_cases hzero : right = 0
      · simp [hzero]
      · simp [hzero, wrap_eq_reduce]
  | _ =>
      rw [hkind] at h
      exact absurd h (by decide)

/-!
### Rows, primaries and derivations
-/

section

variable {joins : Kind → Bool} {α : Type} {yield : α → List Token} {tree : α → Expr}
  {meaning : α → Except Int Int}

/-- Evaluating a tree to which operands are added one after the other is combining its value with
    theirs one after the other. -/
theorem value_foldl {combine : Token → Int → Int → Except Int Int}
    (hcombine : ∀ operator : Token, joins operator.kind = true → ∀ left right,
      Operator.apply operator left right = toOutcome (combine operator left right))
    (others : List (Terminal joins × α))
    (h : ∀ other ∈ others, (tree other.2).value = toOutcome (meaning other.2))
    (left : Expr) (total : Except Int Int) (hleft : left.value = toOutcome total) :
    (others.foldl (fun left other => .binary left other.1.token (tree other.2)) left).value =
      toOutcome (total >>= others.foldlM fun total other => do
        let next ← meaning other.2
        combine other.1.token total next) := by
  induction others generalizing left total with
  | nil => simp only [List.foldl_nil, hleft, List.foldlM_nil, bind_pure]
  | cons other others ih =>
      obtain ⟨operator, right⟩ := other
      have hright := h (operator, right) (by simp)
      have hnext : (Expr.binary left operator.token (tree right)).value =
          toOutcome (total >>= fun total => meaning right >>= combine operator.token total) := by
        rw [Expr.value, hleft, hright]
        cases total with
        | error position => rfl
        | ok total =>
            cases meaning right with
            | error position => rfl
            | ok next => exact hcombine operator.token operator.fits total next
      have hothers := ih (fun other hother => h other (by simp [hother])) _ _ hnext
      simp only [List.foldl_cons, hothers, List.foldlM_cons, bind_assoc]

/-- The value of the tree of a row is the meaning of the row, if that is so for its operands. -/
theorem Chain.value_tree {combine : Token → Int → Int → Except Int Int}
    (hcombine : ∀ operator : Token, joins operator.kind = true → ∀ left right,
      Operator.apply operator left right = toOutcome (combine operator left right))
    (h : ∀ a, (∀ token ∈ yield a, token.Decoded) → (tree a).value = toOutcome (meaning a))
    (chain : Chain joins α) (hdecoded : ∀ token ∈ chain.yield yield, token.Decoded) :
    (chain.tree tree).value = toOutcome (chain.meaning combine meaning) := by
  obtain ⟨first, others⟩ := chain
  simp only [Chain.yield, List.forall_mem_append, List.forall_mem_flatMap,
    List.forall_mem_cons] at hdecoded
  have hothers : ∀ other ∈ others, (tree other.2).value = toOutcome (meaning other.2) :=
    fun other hother => h other.2 (hdecoded.2 other hother).2
  exact value_foldl hcombine others hothers (tree first) (meaning first) (h first hdecoded.1)

/-- The value of the tree of a primary is the meaning of the primary, if that is so for what groups
    contain. -/
theorem Primary.value_tree
    (h : ∀ a, (∀ token ∈ yield a, token.Decoded) → (tree a).value = toOutcome (meaning a))
    (primary : Primary α) (hdecoded : ∀ token ∈ primary.yield yield, token.Decoded) :
    (primary.tree tree).value = toOutcome (primary.meaning meaning) := by
  cases primary with
  | number token isNumber =>
      have htoken : token.Decoded := hdecoded token (by simp [Primary.yield])
      simp only [Primary.tree, Expr.value, htoken isNumber, Primary.meaning, toOutcome_ok]
  | group opening content closing isOpening isClosing =>
      apply h content
      intro token htoken
      exact hdecoded token (by simp [Primary.yield, htoken])

end

/-- The value of the tree inside a group is the meaning of what is inside. -/
theorem Nested.value_tree (room : Nat) (content : Nested room)
    (hdecoded : ∀ token ∈ content.yield room, token.Decoded) :
    (content.tree room).value = toOutcome (content.meaning room) := by
  induction room with
  | zero => exact content.elim
  | succ room ih =>
      have hprimary := Primary.value_tree ih
      have hfactor := Chain.value_tree (fun _ h => apply_eq_product h) hprimary
      exact Chain.value_tree (fun _ h => apply_eq_sum h) hfactor content hdecoded

/-- The value of the tree of a derivation is the meaning of the derivation, provided that its
    numbers have the decimal values of their digits. -/
theorem value_tree {room : Nat} (derivation : Derivation room)
    (hdecoded : ∀ token ∈ derivation.yield, token.Decoded) :
    derivation.tree.value = toOutcome derivation.meaning :=
  Nested.value_tree (room + 1) derivation hdecoded

end Reckoner.Grammar
