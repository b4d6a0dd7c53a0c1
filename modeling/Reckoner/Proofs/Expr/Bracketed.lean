/-
Module: Reckoner.Proofs.Expr.Bracketed
Layer: Proofs
Purpose: The fully parenthesized text of a tree. It is written with the leaves of another tree, which
  has parentheses around every binary expression and around every group; and that tree differs from
  the first in its groups only. So no two operands of the text need precedence or associativity to
  be told apart, and what is left when the groups are dropped is the same.
Main exports: Expr.ungrouped, Expr.value_ungrouped, Expr.bracketed, Expr.ungrouped_bracketed,
  Expr.grammatical_bracketed, Expr.mem_leaves_bracketed, Expr.written_text
-/
import Reckoner.Proofs.Expr.Evaluation
import Reckoner.Proofs.Token.Layout

namespace Reckoner

open Text

namespace Expr

/-!
### Dropping groups
-/

/-- The tree without its groups, each of which makes way for its content. -/
def ungrouped : Expr → Expr
  | numeral token => numeral token
  | group _ inner _ => inner.ungrouped
  | binary left operator right => binary left.ungrouped operator right.ungrouped

/-- Groups are dropped no matter what the tokens of a tree are. -/
theorem ungrouped_map (f : Token → Token) (e : Expr) :
    (e.map f).ungrouped = e.ungrouped.map f := by
  induction e with
  | numeral token => rfl
  | group opening inner closing ih => exact ih
  | binary left operator right ihl ihr => simp [map, ungrouped, ihl, ihr]

theorem value_ungrouped (e : Expr) : e.ungrouped.value = e.value := by
  induction e with
  | numeral token => rfl
  | group opening inner closing ih => exact ih
  | binary left operator right ihl ihr => rw [ungrouped, value, value, ihl, ihr]

/-- What is left of a tree that can be evaluated can be evaluated. -/
theorem Evaluable.ungrouped {e : Expr} (h : e.Evaluable) : e.ungrouped.Evaluable := by
  induction e with
  | numeral token => exact h
  | group opening inner closing ih => exact ih h
  | binary left operator right ihl ihr => exact ⟨ihl h.1, h.2.1, ihr h.2.2⟩

/-!
### The tree of the text
-/

/-- The opening parenthesis that is written in front of a group. -/
def opener : Token :=
  .plain .opening 0 "("

/-- The closing parenthesis that is written behind a group. -/
def closer : Token :=
  .plain .closing 0 ")"

/-- The tree whose leaves are written by the fully parenthesized text of a tree. Every binary
    expression is in a group of its own, and so is the content of every group. -/
def bracketed : Expr → Expr
  | numeral token => numeral token
  | group _ inner _ => group opener inner.bracketed closer
  | binary left operator right =>
      group opener (binary left.bracketed operator right.bracketed) closer

/-- The groups that are put around the expressions of a tree are dropped with its own. -/
theorem ungrouped_bracketed (e : Expr) : e.bracketed.ungrouped = e.ungrouped := by
  induction e with
  | numeral token => rfl
  | group opening inner closing ih => exact ih
  | binary left operator right ihl ihr => simp [bracketed, ungrouped, ihl, ihr]

/-- No binary expression is left without parentheses. -/
theorem kind_bracketed_ne (e : Expr) : e.bracketed.kind ≠ .binary := by
  cases e <;> simp [bracketed, kind]

/-- The tree of the text is a tree of the grammar. No operand is binary, and so none needs
    parentheses that it does not have. -/
theorem grammatical_bracketed {e : Expr} (h : e.Grammatical) : e.bracketed.Grammatical := by
  induction e with
  | numeral token => exact h
  | group opening inner closing ih => exact ⟨rfl, ih h.2.1, rfl⟩
  | binary left operator right ihl ihr =>
      refine ⟨rfl, ⟨ihl h.1, ihr h.2.1, ?_⟩, rfl⟩
      rcases h.2.2 with ⟨hsum, -⟩ | ⟨hproduct, -⟩
      · exact .inl ⟨hsum, not_isSum_of_kind_ne right.kind_bracketed_ne⟩
      · exact .inr ⟨hproduct, not_isSum_of_kind_ne left.kind_bracketed_ne,
          right.kind_bracketed_ne⟩

/-- The leaves of the tree of the text are leaves of the tree itself or parentheses. -/
theorem mem_leaves_bracketed {e : Expr} {token : Token} (h : token ∈ e.bracketed.leaves) :
    token ∈ e.leaves ∨ token = opener ∨ token = closer := by
  induction e with
  | numeral number => exact .inl h
  | group opening inner closing ih =>
      rw [bracketed, leaves, List.mem_cons, List.mem_append, List.mem_singleton] at h
      rcases h with hopener | hinner | hcloser
      · exact .inr (.inl hopener)
      · exact (ih hinner).imp_left fun hmem => by simp [leaves, hmem]
      · exact .inr (.inr hcloser)
  | binary left operator right ihl ihr =>
      rw [bracketed, leaves, leaves, List.mem_cons, List.mem_append, List.mem_append,
        List.mem_cons, List.mem_singleton] at h
      rcases h with hopener | (hleft | rfl | hright) | hcloser
      · exact .inr (.inl hopener)
      · exact (ihl hleft).imp_left fun hmem => by simp [leaves, hmem]
      · exact .inl (by simp [leaves])
      · exact (ihr hright).imp_left fun hmem => by simp [leaves, hmem]
      · exact .inr (.inr hcloser)

/-- Parentheses around a text on which tokens are written. -/
theorem written_enclosed {tokens : List Token} {text : List Char} (h : Written tokens text) :
    Written (opener :: (tokens ++ [closer])) ('(' :: (text ++ [')'])) :=
  .token opener (h.append (.single closer))

/-- The fully parenthesized text of a tree is written with the leaves of the tree of the text. -/
theorem written_text (e : Expr) : Written e.bracketed.leaves e.text.toList := by
  induction e with
  | numeral token => exact .single token
  | group opening inner closing ih =>
      have htext : (group opening inner closing).text.toList =
          '(' :: (inner.text.toList ++ [')']) := by
        simp [text]
      rw [htext]
      exact written_enclosed ih
  | binary left operator right ihl ihr =>
      have htext : (binary left operator right).text.toList =
          '(' :: (left.text.toList ++ ' ' :: (operator.text.toList ++ ' ' :: right.text.toList) ++
            [')']) := by
        simp [text]
      have hblank : isBlank ' ' = true := by decide
      rw [htext]
      exact written_enclosed (ihl.append (.blank hblank (.token operator (.blank hblank ihr))))

end Expr

end Reckoner
