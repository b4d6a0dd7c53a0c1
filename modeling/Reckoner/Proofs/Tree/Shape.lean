/-
Module: Reckoner.Proofs.Tree.Shape
Layer: Proofs
Purpose: The shape of what is read. Every rule of reading keeps the shape that the grammar prescribes
  for its level, also where tokens are missing and where groups are skipped, because an empty token
  has the kind that was asked for. So the root of every line is a tree of the grammar, and as such it
  is determined by its leaves.
Main exports: Rank.Fits, Course.fits, Expr.kind_of_mem_leaves, Tree.grammatical_root,
  Tree.root_unique
-/
import Reckoner.Proofs.Grammar.Unambiguous
import Reckoner.Proofs.Tree.Course

namespace Reckoner

open Grammar

/-!
### The shape of phrases
-/

namespace Rank

/-- The trees of the grammar that are phrases of a level: a primary is not binary, and a factor is
    no sum. -/
def Fits : Rank → Expr → Prop
  | primary, e => e.Grammatical ∧ e.kind ≠ .binary
  | factor, e => e.Grammatical ∧ ¬ e.IsSum
  | term, e => e.Grammatical

theorem Fits.of_operand {rank : Rank} {e : Expr} (h : rank.operand.Fits e) : rank.Fits e := by
  cases rank with
  | primary => exact h
  | factor => exact ⟨h.1, Expr.not_isSum_of_kind_ne h.2⟩
  | term => exact h.1

/-- A phrase with one more operand is a phrase of the same level. -/
theorem Fits.binary {rank : Rank} {left right : Expr} {operator : Token} (hleft : rank.Fits left)
    (hjoins : rank.joins operator.kind = true) (hright : rank.operand.Fits right) :
    rank.Fits (.binary left operator right) := by
  cases rank with
  | primary => exact absurd hjoins (by simp [joins])
  | factor =>
      refine ⟨⟨hleft.1, hright.1, .inr ⟨hjoins, hleft.2, hright.2⟩⟩, ?_⟩
      rw [Expr.IsSum, isAdditive_eq_false_of_isMultiplicative hjoins]
      simp
  | term => exact ⟨hleft, hright.1, .inl ⟨hjoins, hright.2⟩⟩

end Rank

/-- What is found has the kind that was asked for, whether it is there or missing. -/
theorem kind_token_expect (stop : Int) (kind : Kind) (tokens : List Token) :
    (expect stop kind tokens).token.kind = kind := by
  unfold expect
  dsimp only
  split
  · next hkind => exact hkind
  · rfl

/-- Every phrase that is read has the shape of its level. -/
theorem Course.fits {stop : Int} {rank : Rank} {room : Nat} {tokens : List Token} {phrase : Phrase}
    (h : Course stop rank room tokens phrase) : rank.Fits phrase.tree := by
  induction h with
  | number hclear => exact ⟨kind_token_expect _ _ _, by simp [readNumeral, Expr.kind]⟩
  | skipped hopening =>
      -- The empty number that stands for the content is a number all the same.
      exact ⟨⟨hopening, rfl, kind_token_expect _ _ _⟩, by simp [skipGroup, Expr.kind]⟩
  | group hopening hinner hclear ih =>
      exact ⟨⟨hopening, ih, kind_token_expect _ _ _⟩, by simp [Phrase.enclosed, Expr.kind]⟩
  | operand h ih => exact ih.of_operand
  | join hleft hrest hjoins hright ihleft ihright => exact ihleft.binary hjoins ihright

/-- A leaf of a tree of the grammar is a number, a parenthesis or an operator. -/
theorem Expr.kind_of_mem_leaves {e : Expr} (h : e.Grammatical) {token : Token}
    (hmem : token ∈ e.leaves) :
    token.kind = .number ∨ token.kind = .opening ∨ token.kind = .closing ∨
      token.kind.isOperator = true := by
  induction e with
  | numeral number =>
      rw [leaves, List.mem_singleton] at hmem
      subst hmem
      exact .inl h
  | group opening inner closing ih =>
      rw [leaves, List.mem_cons, List.mem_append, List.mem_singleton] at hmem
      rcases hmem with rfl | hinner | rfl
      · exact .inr (.inl h.1)
      · exact ih h.2.1 hinner
      · exact .inr (.inr (.inl h.2.2))
  | binary left operator right ihl ihr =>
      rw [leaves, List.mem_append, List.mem_cons] at hmem
      rcases hmem with hleft | rfl | hright
      · exact ihl h.1 hleft
      · exact .inr (.inr (.inr (isOperator_of_grammatical h)))
      · exact ihr h.2.1 hright

/-!
### Roots
-/

namespace Tree

/-- The root of every line, well formed or not, is a tree of the grammar. -/
theorem grammatical_root (line : String) : (ofLine line).root.Grammatical :=
  (course_term _ nestingLimit (Lexemes.ofLine line).tokens).fits

/-- The root of every line, well formed or not, is a tree of the grammar: its numbers, parentheses
    and operators are tokens of these kinds, and no operand stands without parentheses that it
    needs. Neither a blank nor a bad character nor the end of a text is among its leaves, and no
    other tree of the grammar has the same leaves. -/
theorem root_unique (line : String) :
    (ofLine line).root.Grammatical ∧
      (∀ token ∈ (ofLine line).root.leaves,
        token.kind ≠ .blank ∧ token.kind ≠ .bad ∧ token.kind ≠ .finish) ∧
      ∀ other : Expr, other.Grammatical → other.leaves = (ofLine line).root.leaves →
        other = (ofLine line).root := by
  have hroot := grammatical_root line
  refine ⟨hroot, ?_, ?_⟩
  · intro token hmem
    rcases Expr.kind_of_mem_leaves hroot hmem with hkind | hkind | hkind | hkind
    · simp [hkind]
    · simp [hkind]
    · simp [hkind]
    · exact ⟨Kind.ne_of_isOperator hkind rfl, Kind.ne_of_isOperator hkind rfl,
        Kind.ne_of_isOperator hkind rfl⟩
  · intro other hother hleaves
    exact Expr.eq_of_leaves_eq hother hroot hleaves

end Tree

end Reckoner
