/-
Module: Reckoner.Proofs.Tree.Mended
Layer: Proofs
Purpose: Evaluating what was mended. A line with diagnostics has a tree all the same, and evaluating
  it makes up no number: an operand that is missing, or whose digits denote no word, is met and ends
  the evaluation, unless a division by zero has ended it before.
Main exports: Tree.value_of_values, Tree.value_of_missing, Tree.evaluate_mended
-/
import Reckoner.Proofs.Expr.Evaluation
import Reckoner.Proofs.Expr.Order
import Reckoner.Proofs.Tree.Shape

namespace Reckoner

namespace Tree

variable {line : String}

/-- If all numbers of a tree have values, the tree has a word as its value or it divides by zero. -/
theorem value_of_values
    (h : ∀ token ∈ (ofLine line).root.leaves, token.kind = .number → token.value ≠ none) :
    (∃ value, (ofLine line).root.value = .ok value ∧ Word.InRange value) ∨
      ∃ position, (ofLine line).root.value = .error (.divisionByZero position) := by
  have hevaluable : (ofLine line).root.Evaluable := by
    apply Expr.evaluable_of_grammatical (grammatical_root line)
    intro token hmem hkind
    exact Option.isSome_iff_ne_none.mpr (h token hmem hkind)
  rcases Expr.value_of_evaluable hevaluable with hword | ⟨operator, -, -, hfault⟩
  · exact .inl hword
  · exact .inr ⟨operator.position, hfault⟩

/-- If a number of a tree has no value, evaluation comes to such a number and fails there, or it fails
    at a division by zero while the number is still ahead. -/
theorem value_of_missing {token : Token} (hmem : token ∈ (ofLine line).root.leaves)
    (hkind : token.kind = .number) (hvalue : token.value = none) :
    (∃ number later, (ofLine line).root.ComesTo (.numeral number) later ∧ number.value = none ∧
        (ofLine line).root.value = .error .missingValue) ∨
      ∃ left slash right later, (ofLine line).root.ComesTo (.binary left slash right) later ∧
        .numeral token ∈ later ∧ slash.kind = .slash ∧ right.value = .ok 0 ∧
        (ofLine line).root.value = .error (.divisionByZero slash.position) := by
  have hgrammatical := grammatical_root line
  have hahead : .numeral token ∈ (ofLine line).root.inOrder :=
    (Expr.numeral_mem_inOrder_iff hgrammatical token).mpr ⟨hmem, hkind⟩
  have hnone : ¬ ∃ value, (Expr.numeral token).value = .ok value := by
    simp [Expr.value, hvalue]
  rcases Expr.value_cases_of_grammatical hgrammatical with ⟨-, -, hvalues⟩ | hnumber |
    ⟨left, slash, right, later, hcomes, hslash⟩
  · exact absurd (hvalues _ hahead) hnone
  · exact .inl hnumber
  · refine .inr ⟨left, slash, right, later, hcomes, ?_, hslash⟩
    -- All nodes in front of the division have values, and the division is no number.
    obtain ⟨earlier, horder, hvalues⟩ := hcomes
    rw [horder, List.mem_append, List.mem_cons] at hahead
    rcases hahead with hearlier | hsame | hlater
    · exact absurd (hvalues _ hearlier) hnone
    · exact absurd hsame (by simp)
    · exact hlater

/-- Evaluating the tree of any line, with diagnostics or without, never meets an operator that is none
    of the four. If all numbers of the tree have values, it gives a word, or it fails at a division by
    zero. If any number has no value, be it missing, the content of a group that was skipped or a run
    of digits that denotes no word, evaluation gives no integer: it fails for want of a value at the
    first such number, after everything earlier has had a value; or else it fails at a division by
    zero, after everything earlier has had a value and while all numbers without a value are still
    ahead. -/
theorem evaluate_mended (line : String) :
    let root := (ofLine line).root
    let outcome := (Node.expr root).evaluate
    (∀ kind, outcome ≠ .error (.unexpectedOperator kind)) ∧
      ((∀ token ∈ root.leaves, token.kind = .number → token.value ≠ none) →
        (∃ value, outcome = .ok value ∧ Word.InRange value) ∨
          ∃ position, outcome = .error (.divisionByZero position)) ∧
      ∀ token ∈ root.leaves, token.kind = .number → token.value = none →
        (∀ value, outcome ≠ .ok value) ∧
          ((∃ number later, root.ComesTo (.numeral number) later ∧ number.value = none ∧
              outcome = .error .missingValue) ∨
            ∃ left slash right later, root.ComesTo (.binary left slash right) later ∧
              .numeral token ∈ later ∧ slash.kind = .slash ∧ right.value = .ok 0 ∧
              outcome = .error (.divisionByZero slash.position)) := by
  intro root outcome
  have houtcome : outcome = root.value := Node.evaluate_eq_value _
  rw [houtcome]
  refine ⟨?_, value_of_values, ?_⟩
  · intro kind
    rcases Expr.value_cases_of_grammatical (grammatical_root line) with ⟨value, hvalue, -⟩ |
      ⟨_, _, -, -, hvalue⟩ | ⟨_, _, _, _, -, -, -, hvalue⟩
    · simp [root, hvalue]
    · simp [root, hvalue]
    · simp [root, hvalue]
  · intro token hmem hkind hnone
    have hmissing := value_of_missing hmem hkind hnone
    refine ⟨?_, hmissing⟩
    intro value
    rcases hmissing with ⟨_, _, -, -, hvalue⟩ | ⟨_, _, _, _, -, -, -, -, hvalue⟩
    · simp [root, hvalue]
    · simp [root, hvalue]

/-- Zero times a missing number is no zero, and a division by zero in front of it is met first. -/
example :
    (Node.expr (ofLine "0 * ()").root).evaluate = .error .missingValue ∧
      (Node.expr (ofLine "1/0 + ()").root).evaluate = .error (.divisionByZero 1) := by
  constructor <;> cbv

end Tree

end Reckoner
