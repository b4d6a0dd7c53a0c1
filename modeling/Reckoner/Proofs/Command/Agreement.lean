/-
Module: Reckoner.Proofs.Command.Agreement
Layer: Proofs
Purpose: A line can be calculated on its own, its tree can be drawn, and it can be read in a
  session, each by a command of its own. What calculating prints is what the session prints for the
  line, and drawing prints the same but for the value or the division by zero at the end. The console
  may be any that renders a print by its text and its style; for a session it has to be able to ask
  with the prompt, and one that is not gives up before the first line.
Main exports: Command.answered_calculating, Command.drawing_eq, Command.drawing_snoc,
  Command.serves_readerOf, Command.conversation_eq, Command.conversation_of_error,
  Command.run_converse, Command.prints_agree
-/
import Reckoner.Command
import Reckoner.Proofs.Session.Loop
import Reckoner.Proofs.Terminal.Prompt

namespace Reckoner.Command

open Session

variable {settings : Settings} {line : String}

/-!
### Single lines
-/

/-- Calculating never breaks off. -/
theorem calculating_eq (settings : Settings) (line : String) (showTree : Bool) :
    calculating settings line showTree =
      ⟨drawn settings showTree (Tree.ofLine line) ++
          report settings ⟨Tree.ofLine line, (Line.interpret line).value?,
            (Line.interpret line).fault?.map Fault.message⟩,
        .ok (if (Line.interpret line).value?.isSome then 0 else 1)⟩ := by
  rw [calculating, Line.calculate_eq]

theorem answered_calculating (hline : ¬ Toggles line) (settings : Settings) (showTree : Bool) :
    Answered settings showTree line (calculating settings line showTree).prints := by
  rw [calculating_eq]
  exact answered_report settings showTree hline

/-- Trees of a line with diagnostics are drawn as they are shown when the line is calculated. -/
theorem drawing_eq (h : (Tree.ofLine line).diagnostics ≠ []) :
    (drawing settings line).prints = (calculating settings line true).prints := by
  rw [calculating_eq, report_of_diagnostics_ne_nil settings h]
  rfl

/-- For a line without diagnostics calculating prints one thing more: the value, or the division by
    zero. -/
theorem drawing_snoc (h : (Tree.ofLine line).diagnostics = []) :
    ∃ last, Outcome settings line [last] ∧
      (calculating settings line true).prints = (drawing settings line).prints ++ [last] := by
  have houtcome := outcome_report settings line
  have hprints : (calculating settings line true).prints =
      (drawing settings line).prints ++ report settings ⟨Tree.ofLine line,
        (Line.interpret line).value?, (Line.interpret line).fault?.map Fault.message⟩ := by
    rw [calculating_eq, drawing, h]
    rfl
  rw [hprints]
  generalize report settings _ = prints at houtcome
  cases houtcome with
  | reported hne => exact absurd h hne
  | divided _ position hfault => exact ⟨_, .divided h position hfault, rfl⟩
  | valued _ value hvalue => exact ⟨_, .valued h value hvalue, rfl⟩

/-!
### Sessions
-/

variable {console : Console} {lines : List String}

/-- A console that can ask with a prompt serves its lines and then the end of the input. -/
theorem serves_readerOf {prompt shown : String} (h : console.ask prompt = .ok shown)
    (lines : List String) : (readerOf console lines).Serves prompt lines where
  gives place line hline := by
    rw [readerOf, h]
    exact (Reader.serves_ofLines prompt lines).gives place line hline
  ends := by
    rw [readerOf, h]
    exact (Reader.serves_ofLines prompt lines).ends

theorem turnOutput_mk {prompt shown : String} (h : console.ask prompt = .ok shown)
    (prints : List Print) :
    turnOutput console ⟨prompt, prints⟩ = shown ++ console.printed prints := by
  simp only [turnOutput, h]

/-- A session on a console that can ask with the prompt reads all lines. What appears is the prompt
    and an answer for each of them, and the prompt and a blank line at the end. -/
theorem conversation_eq {shown : String} (hask : console.ask settings.prompt = .ok shown)
    (lines : List String) :
    ∃ answers : List (List Print),
      (Loop.after settings (readerOf console lines) (lines.length + 1)).turns =
        answers.map (Turn.mk settings.prompt) ∧
      (∀ place line, lines[place]? = some line →
        ∃ prints, answers[place]? = some prints ∧
          Answered settings (shownAfter settings.showTree (lines.take place)) line prints) ∧
      answers.length = lines.length + 1 ∧ answers.getLast? = some [⟨"", none⟩] ∧
      conversation console settings lines =
        quiet 0 (String.join (answers.map fun prints => shown ++ console.printed prints)) := by
  have hserves := serves_readerOf hask lines
  have hserved := Loop.served_after hserves.gives (Nat.le_refl _)
  have hended := Loop.after_served hserves
  have hturns := hserved.turns_eq (Nat.le_refl _)
  generalize Loop.after settings (readerOf console lines) lines.length =
    loop at hserved hended hturns
  have hall : loop.turns ++ [⟨settings.prompt, [⟨"", none⟩]⟩] =
      (loop.turns.map Turn.prints ++ [[(⟨"", none⟩ : Print)]]).map (Turn.mk settings.prompt) := by
    rw [List.map_append, ← hturns]
    rfl
  refine ⟨loop.turns.map Turn.prints ++ [[⟨"", none⟩]], ?_, fun place line hline => ?_, ?_, ?_, ?_⟩
  · rw [hended, hall]
  · have hplace : place < lines.length := (List.getElem?_eq_some_iff.mp hline).1
    obtain ⟨prints, hturn, hprints⟩ := hserved.answered place line hplace hline
    refine ⟨prints, ?_, hprints⟩
    rw [List.getElem?_append_left (by rw [List.length_map, hserved.length]; exact hplace),
      List.getElem?_map, hturn, Option.map_some]
  · rw [List.length_append, List.length_map, hserved.length, List.length_singleton]
  · exact List.getLast?_concat
  · simp only [conversation, hended, ofLoop, hall, List.map_map, Function.comp_def,
      turnOutput_mk hask]

/-- On a console that cannot ask with the prompt a session ends before the first line. -/
theorem conversation_of_error {fault : Console.Fault}
    (hask : console.ask settings.prompt = .error fault) (lines : List String) :
    conversation console settings lines = failed (.prompt fault) "" [] := by
  have hnone : (readerOf console lines).Gives settings.prompt [] :=
    fun place line hline => by cases hline
  have hfailed : readerOf console lines 0 settings.prompt = .failed fault := by
    rw [readerOf, hask]
  have hfirst : Loop.after settings (readerOf console lines) 1 =
      ⟨settings.showTree, [], .unread fault⟩ :=
    Loop.after_failed hnone hfailed
  have hstopped : (Loop.after settings (readerOf console lines) 1).status ≠ .reading := by
    rw [hfirst]
    exact fun hreading => by cases hreading
  have hafter := Loop.after_of_stopped hstopped lines.length
  rw [Nat.add_comm, hfirst] at hafter
  rw [conversation, hafter]
  rfl

/-!
### The result
-/

variable {loaded : Settings.Loaded} {host : Host}

/-- Carried out with settings, calculating a line prints what is described and ends with 0 if the
    line has a value. -/
theorem run_calculate (hloaded : loaded.outcome = .ok settings) (line : String) (showTree : Bool)
    (lines : List String) :
    (calculate line showTree).run host loaded lines =
      ⟨if (Line.interpret line).value?.isSome then 0 else 1,
        host.console.printed (calculating settings line showTree).prints, "",
        loaded.warnings, none⟩ := by
  simp only [run, hloaded, withSettings, Deed.transcript, quiet, calculating_eq]

theorem run_draw (hloaded : loaded.outcome = .ok settings) (line : String) (lines : List String) :
    (draw line).run host loaded lines =
      ⟨0, host.console.printed (drawing settings line).prints, "", loaded.warnings, none⟩ := by
  simp only [run, hloaded, withSettings, Deed.transcript, quiet, drawing]

theorem adjusted_eq (settings : Settings) (choice : Option Bool) :
    adjusted settings choice = { settings with showTree := choice.getD settings.showTree } := by
  cases choice <;> rfl

/-- Carried out with settings, reading lines is a session in which trees are shown at first if they
    have been turned on, or if they have not been turned off and the settings show them. -/
theorem run_converse (hloaded : loaded.outcome = .ok settings) (configuration : Option String)
    (choice : Option Bool) (lines : List String) :
    (converse configuration choice).run host loaded lines =
      { conversation host.console { settings with showTree := choice.getD settings.showTree } lines
        with warnings := loaded.warnings } := by
  simp only [run, hloaded, withSettings, adjusted_eq]

/-- The three commands agree, on whatever console and with whatever settings have been loaded, as
    long as the line is not the command of a session. Calculating the line prints its answer, with or
    without its tree, and ends with 0 if it has a value and with 1 otherwise. Drawing its tree always
    ends with 0. A session may have been started with trees turned on or off, and other lines may
    come before and behind: if the console can ask with the prompt, the session prints for the line
    what calculating it prints, with its tree if trees are shown by then. All this holds of the lists
    of prints, and so of what a console makes of them. If the line has diagnostics, drawing prints
    what calculating with the tree prints, and otherwise all of that but the last print, which is the
    value or the one division by zero. -/
theorem prints_agree (host : Host) (hloaded : loaded.outcome = .ok settings)
    (hline : ¬ Toggles line) :
    ∃ (evaluated : Bool → List Print) (drawn : List Print),
      (∀ showTree, Answered settings showTree line (evaluated showTree)) ∧
      drawn = ⟨"\n".intercalate (Node.expr (Tree.ofLine line).root).outline,
          if settings.color then some settings.treeStyle else none⟩ ::
        (Tree.ofLine line).diagnostics.map (fun message =>
          ⟨message, if settings.color then some settings.errorStyle else none⟩) ∧
      (∀ showTree lines, (calculate line showTree).run host loaded lines =
        ⟨if (Line.interpret line).value?.isSome then 0 else 1,
          String.join ((evaluated showTree).map host.console.render), "", loaded.warnings, none⟩) ∧
      (∀ lines, (draw line).run host loaded lines =
        ⟨0, String.join (drawn.map host.console.render), "", loaded.warnings, none⟩) ∧
      (∀ configuration choice earlier later shown, host.console.ask settings.prompt = .ok shown →
        ∃ answers : List (List Print),
          (Loop.after { settings with showTree := choice.getD settings.showTree }
              (readerOf host.console (earlier ++ line :: later))
              (earlier.length + later.length + 2)).turns =
            answers.map (Turn.mk settings.prompt) ∧
          answers[earlier.length]? =
            some (evaluated (shownAfter (choice.getD settings.showTree) earlier)) ∧
          (converse configuration choice).run host loaded (earlier ++ line :: later) =
            ⟨0, String.join (answers.map fun prints =>
              shown ++ String.join (prints.map host.console.render)), "", loaded.warnings, none⟩) ∧
      ((Tree.ofLine line).diagnostics ≠ [] → drawn = evaluated true) ∧
      ((Tree.ofLine line).diagnostics = [] →
        ∃ last, Outcome settings line [last] ∧ evaluated true = drawn ++ [last]) := by
  refine ⟨fun showTree => (calculating settings line showTree).prints,
    (drawing settings line).prints, answered_calculating hline settings, rfl,
    run_calculate hloaded line, run_draw hloaded line, ?_, drawing_eq, drawing_snoc⟩
  intro configuration choice earlier later shown hask
  have hsession := @conversation_eq { settings with showTree := choice.getD settings.showTree }
    host.console shown hask (earlier ++ line :: later)
  obtain ⟨answers, hturns, hanswers, -, -, hprinted⟩ := hsession
  have hlength : (earlier ++ line :: later).length + 1 = earlier.length + later.length + 2 := by
    rw [List.length_append, List.length_cons]
    omega
  have hplace : (earlier ++ line :: later)[earlier.length]? = some line := by
    rw [List.getElem?_append_right (Nat.le_refl _), Nat.sub_self, List.getElem?_cons_zero]
  obtain ⟨prints, hanswer, hprints⟩ := hanswers earlier.length line hplace
  rw [List.take_left] at hprints
  have hsame := hprints.unique ((answered_calculating hline settings _).withTrees _)
  refine ⟨answers, hlength ▸ hturns, hanswer.trans (congrArg some hsame), ?_⟩
  rw [run_converse hloaded, hprinted]
  rfl

/-- On a terminal, a session in which trees have been turned on prints for a line that divides by zero
    what drawing its tree prints, and then the division. -/
theorem prints_agree_division :
    let host : Host := ⟨({ takesCodes := false } : Terminal).console, [], ""⟩
    let loaded : Settings.Loaded := ⟨.ok .standard, []⟩
    loaded.outcome = .ok .standard ∧ ¬ Toggles "7 / 0" ∧
      ∃ (drawn : List Print) (last : Print) (shown : String) (answers : List (List Print)),
        Outcome .standard "7 / 0" [last] ∧
        (draw "7 / 0").run host loaded [] =
          ⟨0, String.join (drawn.map host.console.render), "", [], none⟩ ∧
        host.console.ask "> " = .ok shown ∧ answers[1]? = some (drawn ++ [last]) ∧
        (converse none none).run host loaded ["#showTree", "7 / 0"] =
          ⟨0, String.join (answers.map fun prints =>
            shown ++ String.join (prints.map host.console.render)), "", [], none⟩ := by
  intro host loaded
  have hloaded : loaded.outcome = .ok .standard := rfl
  have hline : ¬ Toggles "7 / 0" := by
    rw [← isToggle_iff]
    decide +kernel
  have hdiagnostics : (Tree.ofLine "7 / 0").diagnostics = [] := by decide +kernel
  have hshown :
      shownAfter ((none : Option Bool).getD Settings.standard.showTree) ["#showTree"] = true := by
    decide +kernel
  have hbracket : '[' ∉ "> ".toList := by decide
  have hask := Terminal.ask_of_no_bracket { takesCodes := false } hbracket
  obtain ⟨evaluated, drawn, -, -, -, hdraw, hsession, -, hlast⟩ := prints_agree host hloaded hline
  obtain ⟨last, houtcome, hevaluated⟩ := hlast hdiagnostics
  obtain ⟨answers, -, hanswer, hrun⟩ := hsession none none ["#showTree"] [] _ hask
  rw [hshown, hevaluated] at hanswer
  exact ⟨hloaded, hline, drawn, last, _, answers, houtcome, hdraw [], hask, hanswer, hrun⟩

end Reckoner.Command
