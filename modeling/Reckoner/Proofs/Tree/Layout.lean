/-
Module: Reckoner.Proofs.Tree.Layout
Layer: Proofs
Purpose: Reading undoes writing. The leaves of a tree of the grammar are written one after the other
  with any blanks around them, and the line that results is read as the same tree, every leaf at the
  offset at which it was written.
Main exports: Expr.numbersApart_leaves, Token.bare, Tree.ofLine_spread
-/
import Reckoner.Proofs.Expr.Relabel
import Reckoner.Proofs.Token.Layout
import Reckoner.Proofs.Tree.Acceptance

namespace Reckoner

open Text

/-- No two numbers are next to each other among the leaves of a tree of the grammar. -/
theorem Expr.numbersApart_leaves {e : Expr} (h : e.Grammatical) : NumbersApart e.leaves := by
  induction e with
  | numeral token => simp [leaves, NumbersApart]
  | group opening inner closing ih =>
      obtain ⟨hopening, hinner, hclosing⟩ := h
      rw [leaves, NumbersApart, List.isChain_cons, List.isChain_append]
      refine ⟨?_, ih hinner, by simp, ?_⟩
      · intro next _ hkind
        rw [hopening] at hkind
        exact absurd hkind (by decide)
      · intro last _ next hnext _
        have hnext : next = closing := by simpa [eq_comm] using hnext
        rw [hnext, hclosing]
        decide
  | binary left operator right ihl ihr =>
      have hoperator : operator.kind ≠ .number :=
        Kind.ne_of_isOperator (isOperator_of_grammatical h) rfl
      rw [leaves, NumbersApart, List.isChain_append, List.isChain_cons]
      refine ⟨ihl h.1, ⟨?_, ihr h.2.1⟩, ?_⟩
      · intro next _ hkind
        exact absurd hkind hoperator
      · intro last _ next hnext _
        have hnext : next = operator := by simpa [eq_comm] using hnext
        rw [hnext]
        exact hoperator

def Token.bare (token : Token) : Token :=
  plain token.kind 0 token.text

/-- Where a token is written leaves its kind and its text as they are. -/
theorem Token.bare_writtenAt (token : Token) (position : Nat) :
    (token.writtenAt position).bare = token.bare := by
  rw [bare, bare, kind_writtenAt, text_writtenAt]

namespace Tree

/-- Every line on which the leaves of a tree of the grammar are written, with any blanks in front
    of, between and behind them, is read without a diagnostic and to its end. What is read is the
    tree: its nodes and the kinds and texts of its leaves are the same, and its leaves are the
    tokens at the offsets at which they were written, with the values that their texts decode to. -/
theorem ofLine_spread {e : Expr} (h : e.Grammatical) (hnesting : e.nesting ≤ 128)
    (hspelled : ∀ token ∈ e.leaves, token.Spelled) {gap : Nat → List Char}
    (hgap : ∀ i, ∀ c ∈ gap i, isBlank c = true) :
    let line := String.ofList (spread gap e.leaves)
    (ofLine line).diagnostics = [] ∧
      (ofLine line).finish = Token.finish line.length ∧
      (ofLine line).root.map Token.bare = e.map Token.bare ∧
      (ofLine line).root.leaves = place 0 gap e.leaves := by
  intro line
  have hapart := Expr.numbersApart_leaves h
  have hscan : (Lexemes.ofLine line).reports = [] := reports_spread_eq_nil hspelled hapart hgap
  have hlexemes : (Lexemes.ofLine line).tokens = place 0 gap e.leaves := by
    rw [tokens_ofLine_eq_significant hscan]
    exact significant_eq_place hspelled hapart hgap
  -- The placed tokens are the leaves of a tree that agrees with the given one.
  obtain ⟨other, hother, hbare⟩ :=
    Expr.exists_leaves_eq (map_place Token.bare_writtenAt 0 gap e.leaves)
  have hgrammatical : other.Grammatical := by
    rw [← Expr.grammatical_map_iff (f := Token.bare) (fun _ => rfl), hbare,
      Expr.grammatical_map_iff (f := Token.bare) (fun _ => rfl)]
    exact h
  have hdeep : other.nesting ≤ nestingLimit := by
    rw [← Expr.nesting_map Token.bare, hbare, Expr.nesting_map]
    exact hnesting
  have hread : ofLine line = ⟨other, Token.finish line.length, []⟩ := by
    rw [ofLine, ofLexemes_of_leaves hgrammatical hdeep (hlexemes.trans hother.symm), hscan,
      Lexemes.stop_ofLine]
  rw [hread]
  exact ⟨rfl, rfl, hbare, hother⟩

/-- A product in a sum, with blanks of two sorts behind the first operator. -/
theorem ofLine_spread_product :
    let e : Expr :=
      .binary (.numeral (.plain .number 0 "7")) (.plain .minus 0 "-")
        (.binary (.numeral (.plain .number 0 "02")) (.plain .star 0 "*")
          (.group (.plain .opening 0 "(") (.numeral (.plain .number 0 "3"))
            (.plain .closing 0 ")")))
    let gap : Nat → List Char := fun i => if i = 2 then [' ', '\t'] else []
    let line := String.ofList (spread gap e.leaves)
    line = "7- \t02*(3)" ∧ (ofLine line).diagnostics = [] ∧
      (ofLine line).finish = Token.finish line.length ∧
      (ofLine line).root.map Token.bare = e.map Token.bare ∧
      (ofLine line).root.leaves = place 0 gap e.leaves := by
  refine ⟨by decide, ofLine_spread (by decide) (by decide) (by decide +kernel) ?_⟩
  intro i
  split
  · exact List.all_eq_true.mp (by decide)
  · simp

end Tree

end Reckoner
