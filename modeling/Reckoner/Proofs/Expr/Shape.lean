/-
Module: Reckoner.Proofs.Expr.Shape
Layer: Proofs
Purpose: Which trees are trees of the grammar, and how deep their groups are nested. A tree respects
  precedence and associativity if no operand needs the parentheses that it does not have: sums are
  grouped to the left and are not operands of products, and products are grouped to the left. What
  is in parentheses may be anything.
Main exports: Kind.isOperator, Expr.IsSum, Expr.Grammatical, Expr.nesting
-/
import Reckoner.Expr.Leaves

namespace Reckoner

def Kind.isOperator (kind : Kind) : Bool :=
  kind.isAdditive || kind.isMultiplicative

/-- An operator is of no kind that is not one of the four. -/
theorem Kind.ne_of_isOperator {kind other : Kind} (h : kind.isOperator = true)
    (hother : other.isOperator = false) : kind ≠ other := by
  rintro rfl
  rw [h] at hother
  exact absurd hother (by simp)

namespace Expr

/-- A sum or difference that is not in parentheses. -/
def IsSum : Expr → Prop
  | binary _ operator _ => operator.kind.isAdditive = true
  | _ => False

instance (e : Expr) : Decidable e.IsSum :=
  match e with
  | numeral _ => inferInstanceAs (Decidable False)
  | group .. => inferInstanceAs (Decidable False)
  | binary _ operator _ => inferInstanceAs (Decidable (operator.kind.isAdditive = true))

/-- The shape of the trees of the grammar. Numbers and parentheses are where they belong; the right
    operand of a sum is no sum; neither operand of a product is a sum, and its right operand is not
    binary at all. -/
def Grammatical : Expr → Prop
  | numeral token => token.kind = .number
  | group opening inner closing =>
      opening.kind = .opening ∧ inner.Grammatical ∧ closing.kind = .closing
  | binary left operator right =>
      left.Grammatical ∧ right.Grammatical ∧
        ((operator.kind.isAdditive = true ∧ ¬ right.IsSum) ∨
          (operator.kind.isMultiplicative = true ∧ ¬ left.IsSum ∧ right.kind ≠ .binary))

/-- Whether a tree has the shape of the grammar is decided along the tree. -/
instance decidableGrammatical : (e : Expr) → Decidable e.Grammatical
  | numeral token => inferInstanceAs (Decidable (token.kind = .number))
  | group _ inner _ =>
      have := decidableGrammatical inner
      inferInstanceAs (Decidable (_ ∧ _ ∧ _))
  | binary left _ right =>
      have := decidableGrammatical left
      have := decidableGrammatical right
      inferInstanceAs (Decidable (_ ∧ _ ∧ _))

/-- The number of groups that are nested in one another. -/
def nesting : Expr → Nat
  | numeral _ => 0
  | group _ inner _ => inner.nesting + 1
  | binary left _ right => max left.nesting right.nesting

theorem not_isSum_of_kind_ne {e : Expr} (h : e.kind ≠ .binary) : ¬ e.IsSum := by
  cases e with
  | numeral token => exact id
  | group opening inner closing => exact id
  | binary left operator right => exact absurd rfl h

/-- An operator of a tree of the grammar is one of the four. -/
theorem isOperator_of_grammatical {left right : Expr} {operator : Token}
    (h : (binary left operator right).Grammatical) : operator.kind.isOperator = true := by
  rw [Kind.isOperator, Bool.or_eq_true]
  exact h.2.2.imp And.left And.left

end Expr

end Reckoner
