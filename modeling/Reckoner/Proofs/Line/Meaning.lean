/-
Module: Reckoner.Proofs.Line.Meaning
Layer: Proofs
Purpose: What a line means. A line that is read without a diagnostic has a derivation, and its
  result is the meaning of every derivation it has: the rows of the derivation are folded to the
  left, and the result is the integer that is left or the first division by zero that was met.
Main exports: root_eq_tree, value_root_eq_meaning, interpret_eq_meaning
-/
import Reckoner.Proofs.Grammar.Meaning
import Reckoner.Proofs.Line.Outcome

namespace Reckoner.Line

open Grammar

section

variable {line : String} (h : (Tree.ofLine line).reports = []) {room : Nat}
  {derivation : Derivation room} (hyield : derivation.yield = Token.significant line)
include h hyield

/-- The tree that is read is the tree of every derivation of the line. -/
theorem root_eq_tree : (Tree.ofLine line).root = derivation.tree := by
  obtain ⟨read, hread, hroot⟩ := Tree.exists_derivation_of_reports_eq_nil h
  rw [← hroot]
  exact tree_eq_of_yield_eq (hread.trans hyield.symm)

/-- The value of the tree that is read is the meaning of every derivation of the line. -/
theorem value_root_eq_meaning :
    (Tree.ofLine line).root.value = toOutcome derivation.meaning := by
  have hscan := ((Tree.reports_ofLine_eq_nil_iff line).mp h).1
  rw [root_eq_tree h hyield]
  apply value_tree
  intro token hmem
  rw [hyield] at hmem
  exact Scanner.decoded_of_mem_scan hscan (Token.mem_scan_of_mem_significant hmem)

/-- A division by zero that a derivation means is one at a division sign of the line. -/
theorem slash_of_meaning {position : Int} (hmeaning : derivation.meaning = .error position) :
    ∃ offset : Nat, position = offset ∧ line.toList[offset]? = some '/' := by
  have hvalue := value_root_eq_meaning h hyield
  rw [hmeaning, toOutcome_error] at hvalue
  rcases value_of_reports_eq_nil h with ⟨value, hword, -⟩ | ⟨offset, hslash, hfault⟩
  · rw [hvalue] at hword
    exact absurd hword (by simp)
  · rw [hvalue] at hfault
    simp only [Except.error.injEq, Fault.divisionByZero.injEq] at hfault
    exact ⟨offset, hfault, hslash⟩

end

/-- A line that is read without a diagnostic has a derivation, and whatever derivation of its tokens
    is taken, the line has the value that the derivation means; or if the derivation means a
    division by zero, the line has no value but the fault that names this division, and the offset
    is that of a division sign of the line. -/
theorem interpret_eq_meaning {line : String} (h : (Tree.ofLine line).diagnostics = []) :
    (∃ (room : Nat) (derivation : Derivation room), derivation.yield = Token.significant line) ∧
      ∀ (room : Nat) (derivation : Derivation room), derivation.yield = Token.significant line →
        match derivation.meaning with
        | .ok value => (interpret line).value? = some value ∧ (interpret line).fault? = none
        | .error position =>
            (interpret line).value? = none ∧
              (interpret line).fault? = some (.divisionByZero position) ∧
              ∃ offset : Nat, position = offset ∧ line.toList[offset]? = some '/' := by
  have hreports : (Tree.ofLine line).reports = [] := List.map_eq_nil_iff.mp h
  obtain ⟨read, hread, -⟩ := Tree.exists_derivation_of_reports_eq_nil hreports
  refine ⟨⟨nestingLimit, read, hread⟩, ?_⟩
  intro room derivation hyield
  have houtcome := outcome_of_reports_eq_nil hreports
  rw [value_root_eq_meaning hreports hyield] at houtcome
  cases hmeaning : derivation.meaning with
  | ok value =>
      rw [hmeaning, toOutcome_ok] at houtcome
      exact ⟨by simp [Result.value?, houtcome], by simp [Result.fault?, houtcome]⟩
  | error position =>
      rw [hmeaning, toOutcome_error] at houtcome
      exact ⟨by simp [Result.value?, houtcome], by simp [Result.fault?, houtcome],
        slash_of_meaning hreports hyield hmeaning⟩

/-- Of two divisions by zero the one that is met first is meant. -/
theorem interpret_two_divisions :
    ∃ (room : Nat) (derivation : Derivation room),
      derivation.yield = Token.significant "7 / (2 - 2) + 1/0" ∧
        derivation.meaning = .error 2 := by
  have hdiagnostics : (Tree.ofLine "7 / (2 - 2) + 1/0").diagnostics = [] := by decide +kernel
  have hfault : (interpret "7 / (2 - 2) + 1/0").fault? = some (.divisionByZero 2) := by
    decide +kernel
  obtain ⟨⟨room, derivation, hyield⟩, hmeant⟩ := interpret_eq_meaning hdiagnostics
  refine ⟨room, derivation, hyield, ?_⟩
  have hresult := hmeant room derivation hyield
  cases hmeaning : derivation.meaning with
  | ok value =>
      rw [hmeaning] at hresult
      rw [hresult.2] at hfault
      exact absurd hfault (by simp)
  | error position =>
      rw [hmeaning] at hresult
      rw [hresult.2.1] at hfault
      simpa using hfault

end Reckoner.Line
