/-
Module: Reckoner.Proofs.Line.Outcome
Layer: Proofs
Purpose: What can become of a line. A line is reported, or it has a word as its value, or it divides
  by zero at one of its division signs, and never anything else: on a tree that is read without a
  diagnostic evaluation meets neither a number without a value nor an unknown operator.
Main exports: Result.Reported, Result.Valued, Result.Divided, outcome_of_reports_eq_nil,
  interpret_exactly_one
-/
import Reckoner.Line
import Reckoner.Proofs.Expr.Evaluation
import Reckoner.Proofs.Tree.Acceptance
import Reckoner.Tree.Cursor

namespace Reckoner

/-!
### Tokens and tokens ahead
-/

/-- Every token passes the check that is made when a token is built. -/
theorem Token.build_eq_ok (token : Token) :
    Token.build token.kind token.position token.text token.value = .ok token := by
  obtain ⟨kind, position, text, value, sound⟩ := token
  cases value with
  | none => rfl
  | some value =>
      obtain ⟨hkind, hrange⟩ := sound
      simp [Token.build, hkind, hrange]

/-- A token of the kind of division signs stands where its line has one. -/
theorem Token.slash_of_mem_scan {line : String} {token : Token} (hmem : token ∈ Token.scan line)
    (hkind : token.kind = .slash) :
    ∃ offset : Nat, token.position = offset ∧ line.toList[offset]? = some '/' := by
  have hpartition := Scanner.partition_tokens line 0 line.toList
  have htext : token.text = String.ofList ['/'] := by
    rcases hpartition.text_of_mem hmem with ⟨hnumber, -⟩ | hblank | hfinish | ⟨c, hc, htext⟩
    · simp [hkind] at hnumber
    · simp [hkind] at hblank
    · simp [hkind] at hfinish
    · rw [htext, (ofChar_eq_slash_iff c).mp (by rw [← hc, hkind])]
  obtain ⟨before, behind, hline, hposition⟩ := hpartition.occurs hmem (by simp [hkind])
  refine ⟨before.length, by simpa using hposition, ?_⟩
  simp [hline, htext]

/-- Looking a place up among the tokens and their end is looking ahead from that place. -/
theorem Lexemes.getD_withFinish (lexemes : Lexemes) (place : Nat) :
    lexemes.withFinish[place]?.getD (Token.finish lexemes.stop) =
      upcoming lexemes.stop (lexemes.tokens.drop place) := by
  obtain ⟨tokens, stop, reports⟩ := lexemes
  simp only [withFinish]
  induction tokens generalizing place with
  | nil => cases place <;> rfl
  | cons token tokens ih =>
      cases place with
      | zero => rfl
      | succ place => exact ih place

/-- Wherever a cursor stands, it finds a token, and it is one of the tokens of its line. -/
theorem Cursor.peek_zero (c : Cursor) :
    c.peek 0 = some c.current ∧ c.current ∈ c.lexemes.withFinish := by
  constructor
  · simp [peek, current, ahead, Lexemes.getD_withFinish]
  · cases hahead : c.ahead with
    | nil => simp [current, hahead, upcoming, Lexemes.withFinish]
    | cons token behind =>
        have hmem : token ∈ c.lexemes.tokens.drop c.place := by
          rw [ahead] at hahead
          simp [hahead]
        simp [current, hahead, upcoming, Lexemes.withFinish, List.mem_of_mem_drop hmem]

namespace Line

/-!
### The three outcomes
-/

namespace Result

/-- Something is wrong with the line, and it is not evaluated. -/
structure Reported (r : Result) : Prop where
  diagnostics : r.tree.diagnostics ≠ []
  value : r.value? = none
  fault : r.fault? = none

/-- The line has a value, which fits in a word. -/
structure Valued (r : Result) : Prop where
  diagnostics : r.tree.diagnostics = []
  value : ∃ value, r.value? = some value ∧ -2147483648 ≤ value ∧ value ≤ 2147483647
  fault : r.fault? = none

/-- The line divides by zero, and the message names the place of one of its division signs. -/
structure Divided (line : String) (r : Result) : Prop where
  diagnostics : r.tree.diagnostics = []
  value : r.value? = none
  fault : ∃ position : Nat, position < line.length ∧ line.toList[position]? = some '/' ∧
    r.fault? = some (.divisionByZero position) ∧
    r.fault?.map Fault.message = some s!"ERR: Division by zero at position {position}"

variable {r : Result} {line : String}

theorem Reported.not_valued (h : r.Reported) : ¬ r.Valued :=
  fun hvalued => h.diagnostics hvalued.diagnostics

/-- A line that is reported does not divide by zero. -/
theorem Reported.not_divided (h : r.Reported) : ¬ r.Divided line :=
  fun hdivided => h.diagnostics hdivided.diagnostics

/-- A line that has a value does not divide by zero. -/
theorem Valued.not_divided (h : r.Valued) : ¬ r.Divided line := by
  intro hdivided
  obtain ⟨value, hvalue, -⟩ := h.value
  rw [hdivided.value] at hvalue
  exact absurd hvalue (by simp)

theorem of_outcome_ok {value : Int} (h : r.outcome = some (.ok value)) :
    r.value? = some value ∧ r.fault? = none := by
  simp [value?, fault?, h]

theorem of_outcome_error {fault : Fault} (h : r.outcome = some (.error fault)) :
    r.value? = none ∧ r.fault? = some fault := by
  simp [value?, fault?, h]

section

variable {place : Int → Int} {one other : Result}
  (h : other.outcome = one.outcome.map (Except.mapError (Fault.relocated place)))
include h

/-- If outcomes are the same but for the places of faults, so are the values. -/
theorem value?_of_outcome : other.value? = one.value? := by
  rw [value?, value?, h]
  cases one.outcome with
  | none => rfl
  | some outcome => cases outcome <;> rfl

/-- If outcomes are the same but for the places of faults, so are the faults. -/
theorem fault?_of_outcome : other.fault? = one.fault?.map (Fault.relocated place) := by
  rw [fault?, fault?, h]
  cases one.outcome with
  | none => rfl
  | some outcome => cases outcome <;> rfl

end

end Result

theorem outcome_of_reports_ne_nil {line : String} (h : (Tree.ofLine line).reports ≠ []) :
    (interpret line).outcome = none := by
  simp [interpret, h]

/-- A line without reports has the value of its tree. -/
theorem outcome_of_reports_eq_nil {line : String} (h : (Tree.ofLine line).reports = []) :
    (interpret line).outcome = some (Tree.ofLine line).root.value := by
  simp [interpret, h, Node.evaluate_eq_value, Node.value]

/-- The tree of a line without reports can be evaluated. -/
theorem evaluable_of_reports_eq_nil {line : String} (h : (Tree.ofLine line).reports = []) :
    (Tree.ofLine line).root.Evaluable := by
  obtain ⟨hgrammatical, -, hleaves⟩ := Tree.root_of_reports_eq_nil h
  have hscan := ((Tree.reports_ofLine_eq_nil_iff line).mp h).1
  apply Expr.evaluable_of_grammatical hgrammatical
  intro token hmem hkind
  rw [hleaves] at hmem
  have hvalue := Scanner.decoded_of_mem_scan hscan (Token.mem_scan_of_mem_significant hmem) hkind
  simp [hvalue]

/-- The tree of a line without reports has a word as its value, or it divides by zero at a place
    where the line has a division sign. -/
theorem value_of_reports_eq_nil {line : String} (h : (Tree.ofLine line).reports = []) :
    (∃ value, (Tree.ofLine line).root.value = .ok value ∧ Word.InRange value) ∨
      ∃ position : Nat, line.toList[position]? = some '/' ∧
        (Tree.ofLine line).root.value = .error (.divisionByZero position) := by
  rcases Expr.value_of_evaluable (evaluable_of_reports_eq_nil h) with hword | hfault
  · exact .inl hword
  · obtain ⟨operator, hmem, hkind, hvalue⟩ := hfault
    rw [(Tree.root_of_reports_eq_nil h).2.2] at hmem
    obtain ⟨offset, hposition, hslash⟩ :=
      Token.slash_of_mem_scan (Token.mem_scan_of_mem_significant hmem) hkind
    exact .inr ⟨offset, hslash, by rw [hvalue, hposition]⟩

theorem outcome_cases (line : String) :
    (interpret line).Reported ∨ (interpret line).Valued ∨ (interpret line).Divided line := by
  by_cases h : (Tree.ofLine line).reports = []
  · have hdiagnostics : (Tree.ofLine line).diagnostics = [] := List.map_eq_nil_iff.mpr h
    have houtcome := outcome_of_reports_eq_nil h
    rcases value_of_reports_eq_nil h with ⟨value, hvalue, hrange⟩ | ⟨position, hslash, hvalue⟩
    · rw [hvalue] at houtcome
      obtain ⟨hresult, hfault⟩ := Result.of_outcome_ok houtcome
      exact .inr (.inl ⟨hdiagnostics, ⟨value, hresult, hrange⟩, hfault⟩)
    · rw [hvalue] at houtcome
      have hinside : position < line.length := by
        rw [← String.length_toList]
        exact (List.getElem?_eq_some_iff.mp hslash).1
      obtain ⟨hnone, hfault⟩ := Result.of_outcome_error houtcome
      refine .inr (.inr ⟨hdiagnostics, hnone, position, hinside, hslash, hfault, ?_⟩)
      rw [hfault]
      rfl
  · have houtcome := outcome_of_reports_ne_nil h
    refine .inl ⟨fun hdiagnostics => h (List.map_eq_nil_iff.mp hdiagnostics), ?_, ?_⟩
    · simp [Result.value?, houtcome]
    · simp [Result.fault?, houtcome]

/-- Every line has exactly one of three outcomes: it is reported, it has a word as its value, or it
    divides by zero at one of its division signs. On the way nothing can go wrong: every token that
    is scanned or read passes the check on its value, a cursor finds a token of the line wherever it
    stands, the machine is never short of a value, and a tree that is read without a diagnostic has
    neither a number without a value nor an operator other than the four. -/
theorem interpret_exactly_one (line : String) :
    ((interpret line).Reported ∧ ¬ (interpret line).Valued ∧ ¬ (interpret line).Divided line ∨
        ¬ (interpret line).Reported ∧ (interpret line).Valued ∧ ¬ (interpret line).Divided line ∨
        ¬ (interpret line).Reported ∧ ¬ (interpret line).Valued ∧ (interpret line).Divided line) ∧
      (∀ token ∈ Token.scan line ++ (Tree.ofLine line).root.leaves ++ [(Tree.ofLine line).finish],
        Token.build token.kind token.position token.text token.value = .ok token) ∧
      (∀ c : Cursor, c.lexemes = Lexemes.ofLine line →
        c.peek 0 = some c.current ∧ c.current ∈ (Lexemes.ofLine line).withFinish) ∧
      Machine.run [.visit (.expr (Tree.ofLine line).root)] [] ≠ none ∧
      ((Tree.ofLine line).diagnostics = [] → (Tree.ofLine line).root.Evaluable) := by
  refine ⟨?_, fun token _ => token.build_eq_ok, ?_, Machine.run_visit_ne_none _, ?_⟩
  · rcases outcome_cases line with hreported | hvalued | hdivided
    · exact .inl ⟨hreported, hreported.not_valued, hreported.not_divided⟩
    · exact .inr (.inl ⟨fun h => h.not_valued hvalued, hvalued, hvalued.not_divided⟩)
    · exact .inr (.inr ⟨fun h => h.not_divided hdivided, fun h => h.not_divided hdivided, hdivided⟩)
  · intro c hc
    rw [← hc]
    exact c.peek_zero
  · intro hdiagnostics
    exact evaluable_of_reports_eq_nil (List.map_eq_nil_iff.mp hdiagnostics)

end Line

end Reckoner
