/-
Module: Reckoner.Proofs.Line.Blanks
Layer: Proofs
Purpose: Blanks that are put into a line. If the significant tokens of one line are those of another at
  other places, the lines are read as the same tree, with the same reports about these places, and have
  the same result. Blanks that do not cut a run of digits move the tokens behind them and do nothing
  else to the significant tokens; so they do nothing else to the line.
Main exports: Report.carried, Tree.ofLine_relocated, Line.outcome_relocated,
  Line.interpret_insert_blanks
-/
import Reckoner.Proofs.Line.Outcome
import Reckoner.Proofs.Token.Blanks
import Reckoner.Proofs.Tree.Resume
import Reckoner.Proofs.Tree.Shape

namespace Reckoner

open Text

/-!
### Lines with the same tokens at other places
-/

/-- The report that another line has instead of some report, if its tokens are at other places: it
    quotes the other line and names the other place. -/
def Report.carried (line : String) (place : Int → Int) : Report → Report
  | .invalidNumber _ => .invalidNumber line
  | .tooDeep position limit => .tooDeep (place position) limit
  | report => report

theorem Report.follows_carried (line : String) (place : Int → Int) :
    Follows place (carried line place) :=
  ⟨fun _ _ => rfl, fun _ _ => rfl⟩

/-- A token at another place is reported for another line as it is for its own. -/
theorem Scanner.reportsOf_relocated (one other : String) (place : Int → Int) (token : Token) :
    reportsOf other (token.relocated place) =
      (reportsOf one token).map (Report.carried other place) := by
  unfold reportsOf
  rw [Token.kind_relocated, Token.value_relocated, Token.text_relocated]
  cases token.kind with
  | number => cases token.value <;> rfl
  | _ => rfl

section

variable {one other : String} {place : Int → Int}
  (hsignificant : Token.significant other = (Token.significant one).map (Token.relocated place))
  (hend : (other.length : Int) = place one.length)
include hsignificant

/-- Lines with the same significant tokens at other places have the same reports from their scans. -/
theorem Scanner.reports_relocated :
    (ofLine other).tokens.reports =
      (ofLine one).tokens.reports.map (Report.carried other place) := by
  rw [reports_eq_significant, reports_eq_significant, hsignificant, List.flatMap_map,
    List.map_flatMap]
  exact congrArg (List.flatMap · _) (funext (reportsOf_relocated one other place))

theorem Lexemes.tokens_relocated :
    (ofLine other).tokens = (ofLine one).tokens.map (Token.relocated place) := by
  rw [tokens_eq_significant, tokens_eq_significant, hsignificant, List.filter_map]
  rfl

include hend

/-- Lines with the same significant tokens at other places are read as the same tree, with the same
    reports about these places. -/
theorem Tree.ofLine_relocated :
    (ofLine other).root = (ofLine one).root.map (Token.relocated place) ∧
      (ofLine other).finish = (ofLine one).finish.relocated place ∧
      (ofLine other).reports = (ofLine one).reports.map (Report.carried other place) := by
  have hstop : (Lexemes.ofLine other).stop = place (Lexemes.ofLine one).stop := by
    rw [Lexemes.stop_ofLine, Lexemes.stop_ofLine, hend]
  have hscan : (Lexemes.ofLine other).reports =
      (Lexemes.ofLine one).reports.map (Report.carried other place) :=
    Scanner.reports_relocated hsignificant
  have hswept := sweep_relocated (Report.follows_carried other place) (Lexemes.ofLine one).stop
    .operand 0 (Lexemes.ofLine one).tokens
  rw [← hstop, ← Lexemes.tokens_relocated hsignificant] at hswept
  obtain ⟨hleaves, hfinish, hreports⟩ := ofLexemes_eq_sweep (Lexemes.ofLine one)
  obtain ⟨hothers, hlast, hmore⟩ := ofLexemes_eq_sweep (Lexemes.ofLine other)
  rw [hswept] at hothers hlast hmore
  refine ⟨?_, ?_, ?_⟩
  · apply Expr.eq_of_leaves_eq (grammatical_root other)
    · exact (Expr.grammatical_map_iff (Token.kind_relocated place) _).mpr (grammatical_root one)
    · rw [Expr.leaves_map, ofLine, ofLine, hothers, hleaves]
      rfl
  · rw [ofLine, ofLine, hlast, hfinish]
    rfl
  · rw [ofLine, ofLine, hmore, hreports, hscan, List.map_append]
    rfl

/-- Lines with the same significant tokens at other places have the same outcome: the same value, or
    the same fault at the place to which the division sign is moved, or none at all. -/
theorem Line.outcome_relocated :
    (interpret other).outcome =
      (interpret one).outcome.map (Except.mapError (Fault.relocated place)) := by
  obtain ⟨hroot, -, hreports⟩ := Tree.ofLine_relocated hsignificant hend
  by_cases h : (Tree.ofLine one).reports = []
  · have hother : (Tree.ofLine other).reports = [] := by rw [hreports, h, List.map_nil]
    rw [outcome_of_reports_eq_nil h, outcome_of_reports_eq_nil hother, hroot, Option.map_some,
      Expr.value_relocated]
  · have hother : (Tree.ofLine other).reports ≠ [] := by
      rw [hreports, ne_eq, List.map_eq_nil_iff]
      exact h
    rw [outcome_of_reports_ne_nil h, outcome_of_reports_ne_nil hother, Option.map_none]

end

/-- A report about an invalid number quotes the line. -/
theorem Tree.eq_of_invalidNumber {line quoted : String}
    (h : .invalidNumber quoted ∈ (ofLine line).reports) : quoted = line := by
  have hsame : Token.significant line = (Token.significant line).map (Token.relocated id) :=
    (List.map_id _).symm
  -- The line has the tokens of the same line at the same places.
  rw [(ofLine_relocated hsame rfl).2.2] at h
  obtain ⟨report, -, hreport⟩ := List.mem_map.mp h
  cases report with
  | invalidNumber _ => exact (Report.invalidNumber.inj hreport).symm
  | _ => simp [Report.carried] at hreport

/-!
### Blanks in a line
-/

namespace Line

/-- Blanks do not matter, wherever they are put into a line, as long as they do not cut a run of
    digits. The line is read as the same tree and to the same end token, each token from the blanks on
    being moved by their length; it has the same reports in the same order, where those about invalid
    numbers quote the whole line and those about groups that are nested too deep name the place to
    which the group is moved; and it has the same value, or the same division by zero at the place to
    which the division sign is moved, or neither as before. -/
theorem interpret_insert_blanks {a w b : String} (hw : ∀ c ∈ w.toList, isBlank c = true)
    (hapart : Apart a.toList b.toList) :
    let place := displaced a.length w.length
    (Tree.ofLine (a ++ w ++ b)).root = (Tree.ofLine (a ++ b)).root.map (Token.relocated place) ∧
      (Tree.ofLine (a ++ w ++ b)).finish = (Tree.ofLine (a ++ b)).finish.relocated place ∧
      (Tree.ofLine (a ++ w ++ b)).reports =
        (Tree.ofLine (a ++ b)).reports.map (Report.carried (a ++ w ++ b) place) ∧
      (∀ quoted, .invalidNumber quoted ∈ (Tree.ofLine (a ++ b)).reports → quoted = a ++ b) ∧
      (interpret (a ++ w ++ b)).value? = (interpret (a ++ b)).value? ∧
      (interpret (a ++ w ++ b)).fault? =
        (interpret (a ++ b)).fault?.map (Fault.relocated place) := by
  intro place
  have hsignificant := Token.significant_insert hw hapart
  have hend : ((a ++ w ++ b).length : Int) = place (a ++ b).length := by
    have hle : (a.length : Int) ≤ (a ++ b).length := by
      rw [String.length_append]
      omega
    rw [show place (a ++ b).length = _ from displaced_of_le hle w.length]
    simp only [String.length_append]
    omega
  obtain ⟨hroot, hfinish, hreports⟩ := Tree.ofLine_relocated hsignificant hend
  have houtcome := outcome_relocated hsignificant hend
  exact ⟨hroot, hfinish, hreports, fun _ => Tree.eq_of_invalidNumber,
    Result.value?_of_outcome houtcome, Result.fault?_of_outcome houtcome⟩

/-- Blanks between a number and the division sign behind it move the fault. -/
theorem interpret_insert_blanks_division :
    (∀ c ∈ " \t".toList, isBlank c = true) ∧ Apart "7".toList "/(2-2)".toList ∧
      (interpret ("7" ++ "/(2-2)")).fault? = some (.divisionByZero 1) ∧
      (interpret ("7" ++ " \t" ++ "/(2-2)")).fault? = some (.divisionByZero 3) := by
  have hw : ∀ c ∈ " \t".toList, isBlank c = true := List.all_eq_true.mp (by decide)
  have hapart : Apart "7".toList "/(2-2)".toList := by decide
  have hfault : (interpret ("7" ++ "/(2-2)")).fault? = some (.divisionByZero 1) := by
    decide +kernel
  obtain ⟨-, -, -, -, -, hmoved⟩ := interpret_insert_blanks hw hapart
  refine ⟨hw, hapart, hfault, ?_⟩
  rw [hmoved, hfault]
  rfl

end Line

end Reckoner
