/-
Module: Reckoner.Proofs.Session.Report
Layer: Proofs
Purpose: A line is calculated and then reported, and either could go wrong: the calculation could
  break off with a fault that is not arithmetic, and a report could find neither a diagnostic nor an
  error nor a value. No line takes one of these ways out. So what is printed for a line is one of
  four things, told apart by the line alone, and said here text by text and style by style.
Main exports: Line.interpret_cases, Line.calculate_eq, Session.Toggles, Session.isToggle_iff,
  Session.Outcome, Session.outcome_report, Session.Answered, Session.exists_answer,
  Session.Answered.unique
-/
import Reckoner.Session
import Reckoner.Proofs.Line.Outcome

namespace Reckoner

namespace Line

/-- What a line comes to: it has diagnostics, or evaluating its tree ends with a division by zero,
    or with a value. -/
theorem interpret_cases (line : String) :
    ((Tree.ofLine line).diagnostics ≠ [] ∧ (interpret line).value? = none ∧
        (interpret line).fault? = none) ∨
      ((Tree.ofLine line).diagnostics = [] ∧ ∃ position : Nat,
        (Node.expr (Tree.ofLine line).root).evaluate = .error (.divisionByZero position) ∧
          (interpret line).value? = none ∧
          (interpret line).fault? = some (.divisionByZero position)) ∨
      ((Tree.ofLine line).diagnostics = [] ∧ ∃ value,
        (Node.expr (Tree.ofLine line).root).evaluate = .ok value ∧
          (interpret line).value? = some value ∧ (interpret line).fault? = none) := by
  by_cases h : (Tree.ofLine line).reports = []
  · have hdiagnostics : (Tree.ofLine line).diagnostics = [] := List.map_eq_nil_iff.mpr h
    have houtcome := outcome_of_reports_eq_nil h
    have hevaluate := Node.evaluate_eq_value (.expr (Tree.ofLine line).root)
    rcases value_of_reports_eq_nil h with ⟨value, hvalue, -⟩ | ⟨position, -, hvalue⟩
    · rw [hvalue] at houtcome
      exact .inr (.inr ⟨hdiagnostics, value, hevaluate.trans hvalue, Result.of_outcome_ok houtcome⟩)
    · rw [hvalue] at houtcome
      exact .inr (.inl
        ⟨hdiagnostics, position, hevaluate.trans hvalue, Result.of_outcome_error houtcome⟩)
  · have hdiagnostics : (Tree.ofLine line).diagnostics ≠ [] := mt List.map_eq_nil_iff.mp h
    have houtcome := outcome_of_reports_ne_nil h
    exact .inl ⟨hdiagnostics, by simp only [Result.value?, houtcome],
      by simp only [Result.fault?, houtcome]⟩

/-- No calculation breaks off. It gives what the line is interpreted as. -/
theorem calculate_eq (line : String) :
    calculate line = .ok ⟨Tree.ofLine line, (interpret line).value?,
      (interpret line).fault?.map Fault.message⟩ := by
  rcases interpret_cases line with ⟨hdiagnostics, hvalue, hfault⟩ |
    ⟨hdiagnostics, position, hevaluate, hvalue, hfault⟩ |
    ⟨hdiagnostics, value, hevaluate, hvalue, hfault⟩
  · obtain ⟨first, others, hcons⟩ := List.exists_cons_of_ne_nil hdiagnostics
    simp only [calculate, hcons, hvalue, hfault, Option.map_none]
  · simp only [calculate, hdiagnostics, hevaluate, hvalue, hfault, Option.map_some,
      Fault.isArithmetic, if_true]
  · simp only [calculate, hdiagnostics, hevaluate, hvalue, hfault, Option.map_none]

end Line

namespace Session

/-!
### Commands

A line is a command if it holds nothing but the command and blanks around it.
-/

/-- Blanks, the command, and blanks. -/
def Toggles (line : String) : Prop :=
  ∃ front back, (∀ c ∈ front, Text.isBlank c = true) ∧ (∀ c ∈ back, Text.isBlank c = true) ∧
    line.toList = front ++ "#showTree".toList ++ back

/-- What is recognized as the command is the command with blanks around it. -/
theorem isToggle_iff (line : String) : isToggle line = true ↔ Toggles line := by
  rw [isToggle, beq_iff_eq]
  exact Text.trim_eq_iff (by decide) (by decide) (by decide)

instance (line : String) : Decidable (Toggles line) :=
  decidable_of_iff (isToggle line = true) (isToggle_iff line)

/-!
### Outcomes
-/

/-- What is printed when a line has been calculated: all its diagnostics if it has any, each in the
    style of errors, or else the division by zero at which evaluating it ends, or else its value. -/
inductive Outcome (settings : Settings) (line : String) : List Print → Prop where
  | reported (hdiagnostics : (Tree.ofLine line).diagnostics ≠ []) :
      Outcome settings line ((Tree.ofLine line).diagnostics.map fun message =>
        ⟨message, if settings.color then some settings.errorStyle else none⟩)
  | divided (hdiagnostics : (Tree.ofLine line).diagnostics = []) (position : Nat)
      (hfault : (Node.expr (Tree.ofLine line).root).evaluate =
        .error (.divisionByZero position)) :
      Outcome settings line [⟨s!"ERR: Division by zero at position {position}",
        if settings.color then some settings.errorStyle else none⟩]
  | valued (hdiagnostics : (Tree.ofLine line).diagnostics = []) (value : Int)
      (hvalue : (Node.expr (Tree.ofLine line).root).evaluate = .ok value) :
      Outcome settings line [⟨s!"{value}", none⟩]

variable {settings : Settings} {line : String}

/-- If there are diagnostics the report is all of them and nothing else. -/
theorem report_of_diagnostics_ne_nil (settings : Settings) {tree : Tree}
    (h : tree.diagnostics ≠ []) (value : Option Int) (error : Option String) :
    report settings ⟨tree, value, error⟩ = tree.diagnostics.map (messagePrint settings) := by
  obtain ⟨first, others, hcons⟩ := List.exists_cons_of_ne_nil h
  simp only [report, hcons]

/-- Reporting the calculation of a line prints its outcome. -/
theorem outcome_report (settings : Settings) (line : String) :
    Outcome settings line (report settings ⟨Tree.ofLine line, (Line.interpret line).value?,
      (Line.interpret line).fault?.map Fault.message⟩) := by
  rcases Line.interpret_cases line with ⟨hdiagnostics, hvalue, hfault⟩ |
    ⟨hdiagnostics, position, hevaluate, hvalue, hfault⟩ |
    ⟨hdiagnostics, value, hevaluate, hvalue, hfault⟩
  · rw [report_of_diagnostics_ne_nil settings hdiagnostics]
    exact .reported hdiagnostics
  · simp only [report, hdiagnostics, hfault, Option.map_some]
    exact .divided hdiagnostics position hevaluate
  · simp only [report, hdiagnostics, hfault, hvalue, Option.map_none]
    exact .valued hdiagnostics value hevaluate

/-- A line has one outcome. -/
theorem Outcome.unique {prints others : List Print} (h : Outcome settings line prints)
    (hothers : Outcome settings line others) : prints = others := by
  cases h with
  | reported hdiagnostics =>
      cases hothers with
      | reported => rfl
      | divided hnil => exact absurd hnil hdiagnostics
      | valued hnil => exact absurd hnil hdiagnostics
  | divided hdiagnostics position hfault =>
      cases hothers with
      | reported hne => exact absurd hdiagnostics hne
      | divided _ other hother =>
          cases hfault.symm.trans hother
          rfl
      | valued _ value hvalue => cases hfault.symm.trans hvalue
  | valued hdiagnostics value hvalue =>
      cases hothers with
      | reported hne => exact absurd hdiagnostics hne
      | divided _ position hfault => cases hvalue.symm.trans hfault
      | valued _ other hother =>
          cases hvalue.symm.trans hother
          rfl

/-- Of the settings, only the colour and the style of errors matter to an outcome. -/
theorem Outcome.congr {others : Settings} {prints : List Print}
    (h : Outcome settings line prints) (hcolor : others.color = settings.color)
    (hstyle : others.errorStyle = settings.errorStyle) : Outcome others line prints := by
  cases h with
  | reported hdiagnostics =>
      rw [← hcolor, ← hstyle]
      exact .reported hdiagnostics
  | divided hdiagnostics position hfault =>
      rw [← hcolor, ← hstyle]
      exact .divided hdiagnostics position hfault
  | valued hdiagnostics value hvalue => exact .valued hdiagnostics value hvalue

/-!
### Answers
-/

/-- What is printed for a line, given whether trees are shown. The command is confirmed, and nothing
    else is printed. Any other line has its tree printed first if trees are shown, in the style of
    trees, and then its outcome. -/
inductive Answered (settings : Settings) (shown : Bool) (line : String) : List Print → Prop where
  | toggled (h : Toggles line) :
      Answered settings shown line [⟨if shown then "Not showing tree" else "Showing tree", none⟩]
  | calculated (h : ¬ Toggles line) {prints : List Print}
      (houtcome : Outcome settings line prints) :
      Answered settings shown line
        ((if shown then
            [⟨"\n".intercalate (Node.expr (Tree.ofLine line).root).outline,
              if settings.color then some settings.treeStyle else none⟩]
          else []) ++ prints)

/-- Whether trees are shown after a line: the command turns it over. -/
def shownBehind (shown : Bool) (line : String) : Bool :=
  if Toggles line then !shown else shown

/-- What calculating and reporting a line prints, with its tree if trees are shown. -/
theorem answered_report (settings : Settings) (shown : Bool) (h : ¬ Toggles line) :
    Answered settings shown line (drawn settings shown (Tree.ofLine line) ++
      report settings ⟨Tree.ofLine line, (Line.interpret line).value?,
        (Line.interpret line).fault?.map Fault.message⟩) :=
  .calculated h (outcome_report settings line)

/-- Every line is answered. -/
theorem exists_answer (settings : Settings) (shown : Bool) (line : String) :
    ∃ prints, answer settings shown line = .ok (prints, shownBehind shown line) ∧
      Answered settings shown line prints := by
  by_cases htoggles : Toggles line
  · refine ⟨_, ?_, .toggled htoggles⟩
    rw [answer, if_pos ((isToggle_iff line).mpr htoggles), shownBehind, if_pos htoggles]
    cases shown <;> rfl
  · refine ⟨_, ?_, answered_report settings shown htoggles⟩
    rw [answer, if_neg (mt (isToggle_iff line).mp htoggles), Line.calculate_eq, shownBehind,
      if_neg htoggles]

/-- A line has one answer, given whether trees are shown. -/
theorem Answered.unique {shown : Bool} {prints others : List Print}
    (h : Answered settings shown line prints) (hothers : Answered settings shown line others) :
    prints = others := by
  cases h with
  | toggled htoggles =>
      cases hothers with
      | toggled => rfl
      | calculated hnot => exact absurd htoggles hnot
  | calculated hnot houtcome =>
      cases hothers with
      | toggled htoggles => exact absurd htoggles hnot
      | calculated _ hother => rw [houtcome.unique hother]

/-- Whether trees are shown at first does not matter once it is said whether they are shown. -/
theorem Answered.withTrees {shown : Bool} {prints : List Print}
    (h : Answered settings shown line prints) (choice : Bool) :
    Answered { settings with showTree := choice } shown line prints := by
  cases h with
  | toggled htoggles => exact .toggled htoggles
  | calculated hnot houtcome => exact .calculated hnot (houtcome.congr rfl rfl)

end Session

end Reckoner
