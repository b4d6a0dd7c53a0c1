/-
Module: Reckoner.Proofs.Grammar.Unambiguous
Layer: Proofs
Purpose: Reading trees of the grammar. Since derivations and trees of the grammar are the same, a
  term is read without a report exactly where the leaves of such a tree are, and what is read is
  that tree. As a reader gives one result, no other tree of the grammar has the same leaves.
Main exports: Grammar.read_leaves, Grammar.exists_leaves_of_reports, Expr.eq_of_leaves_eq,
  Grammar.nestedWithin_yield_iff
-/
import Reckoner.Proofs.Expr.Nesting
import Reckoner.Proofs.Grammar.Reading
import Reckoner.Proofs.Grammar.Shape

namespace Reckoner

namespace Grammar

/-- A tree of the grammar is read where its leaves are, given room for its groups, and as long as no
    operator follows. -/
theorem read_leaves (stop : Int) {room : Nat} {e : Expr} (h : e.Grammatical)
    (hroom : e.nesting ≤ room) {rest : List Token} (hrest : Clear Kind.isOperator rest) :
    (term stop room).read (e.leaves ++ rest) = ⟨e, rest, []⟩ := by
  obtain ⟨derivation, rfl⟩ := (exists_derivation_iff room e).mpr ⟨h, hroom⟩
  rw [leaves_tree]
  exact (reads_term stop room).complete derivation rest hrest

/-- A term is read without a report only where the leaves of a tree of the grammar are. -/
theorem exists_leaves_of_reports {stop : Int} {room : Nat} {tokens : List Token}
    (h : ((term stop room).read tokens).reports = []) :
    ∃ (e : Expr) (rest : List Token), e.Grammatical ∧ e.nesting ≤ room ∧
      tokens = e.leaves ++ rest ∧ Clear Kind.isOperator rest := by
  obtain ⟨derivation, rest, rfl, hrest⟩ := (reads_term stop room).sound tokens h
  obtain ⟨hgrammatical, hnesting⟩ := grammatical_tree derivation
  exact ⟨derivation.tree, rest, hgrammatical, hnesting, by rw [leaves_tree], hrest⟩

end Grammar

open Grammar

/-- The grammar is unambiguous: a tree of the grammar is determined by its leaves. -/
theorem Expr.eq_of_leaves_eq {one other : Expr} (hone : one.Grammatical)
    (hother : other.Grammatical) (h : one.leaves = other.leaves) : one = other := by
  -- Both trees are what is read where there is room for the groups of either.
  have hreadOne := read_leaves 0 hone (Nat.le_max_left one.nesting other.nesting)
    (clear_nil Kind.isOperator)
  have hreadOther := read_leaves 0 hother (Nat.le_max_right one.nesting other.nesting)
    (clear_nil Kind.isOperator)
  rw [h, hreadOther] at hreadOne
  exact (congrArg Phrase.tree hreadOne).symm

namespace Grammar

/-- Derivations of the same tokens have the same tree, whatever room they have. -/
theorem tree_eq_of_yield_eq {room space : Nat} {one : Derivation room} {other : Derivation space}
    (h : one.yield = other.yield) : one.tree = other.tree := by
  apply Expr.eq_of_leaves_eq (grammatical_tree one).1 (grammatical_tree other).1
  rw [leaves_tree, leaves_tree, h]

/-- The groups of the tokens of a derivation are nested as deep as those of its tree. -/
theorem nestedWithin_yield_iff {room : Nat} (derivation : Derivation room) (limit : Nat) :
    NestedWithin limit derivation.yield ↔ derivation.tree.nesting ≤ limit := by
  rw [← leaves_tree]
  exact Expr.nestedWithin_leaves_iff (grammatical_tree derivation).1 limit

end Grammar

end Reckoner
