/-
Module: Reckoner.Proofs.Tree.Earliest
Layer: Proofs
Purpose: Errors are reported at the earliest possible token. Some tokens are viable if more can be put
  behind them so that a sentence of the grammar results, with the end of the line behind it. Reading is
  silent as long as the tokens are viable: what has been read without a report can always be completed,
  by an operand if one is looked for and by closing the groups that are open. The token that the first
  report is about, and no earlier one, cannot be part of any sentence that starts as the line does.
Main exports: Grammar.Sentence, Grammar.Viable, Grammar.viable_of_run?, Grammar.not_viable_of_step?,
  Sweep.Concerns, Tree.first_report_earliest
-/
import Reckoner.Proofs.Tree.Missing
import Reckoner.Proofs.Tree.Silent

namespace Reckoner

open Sweep (State)

/-!
### Sentences and their beginnings
-/

namespace Grammar

/-- The kinds are those of the tokens of a derivation, with groups nested at most 128 deep. -/
def Sentence (kinds : List Kind) : Prop :=
  ∃ derivation : Derivation 128, derivation.yield.map Token.kind = kinds

/-- The kinds can be continued to those of a sentence with the end of the line behind it. -/
def Viable (kinds : List Kind) : Prop :=
  ∃ more sentence, Sentence sentence ∧ kinds ++ more = sentence ++ [.finish]

/-- The sentences are what the silent runs from the start of a line to where it may end go over. -/
theorem sentence_iff_run? (kinds : List Kind) :
    Sentence kinds ↔ State.start.run? kinds = some .final := by
  constructor
  · rintro ⟨derivation, rfl⟩
    obtain ⟨hgrammatical, hnesting⟩ := grammatical_tree derivation
    exact (Sweep.run?_eq_final_iff _).mpr ⟨_, hgrammatical, hnesting, leaves_tree derivation⟩
  · intro h
    -- Which tokens have the kinds does not matter.
    have hkinds : (kinds.map fun kind => Token.plain kind 0 "").map Token.kind = kinds := by
      simp [Function.comp_def]
    rw [← hkinds] at h
    obtain ⟨e, hgrammatical, hnesting, hleaves⟩ := (Sweep.run?_eq_final_iff _).mp h
    obtain ⟨derivation, rfl⟩ := (exists_derivation_iff 128 e).mpr ⟨hgrammatical, hnesting⟩
    exact ⟨derivation, by rw [← leaves_tree, hleaves, hkinds]⟩

/-- What closes the groups that are open, behind an operand. -/
theorem run?_replicate_closing (groups : Nat) :
    State.run? ⟨.operator, groups⟩ (List.replicate groups .closing) = some .final := by
  induction groups with
  | zero => rfl
  | succ groups ih => simp [List.replicate_succ, ih]

/-- Every state can be completed: an operand is put where one is looked for, and all groups are
    closed. -/
theorem exists_run?_eq_final (state : State) : ∃ kinds, state.run? kinds = some .final := by
  obtain ⟨mode, groups⟩ := state
  cases mode with
  | operand => exact ⟨.number :: List.replicate groups .closing, by simp [run?_replicate_closing]⟩
  | operator => exact ⟨List.replicate groups .closing, run?_replicate_closing groups⟩

/-- What a silent run from the start of a line goes over is viable. -/
theorem viable_of_run? {kinds : List Kind} {state : State}
    (h : State.start.run? kinds = some state) : Viable kinds := by
  obtain ⟨more, hmore⟩ := exists_run?_eq_final state
  refine ⟨more ++ [.finish], kinds ++ more, ?_, by rw [List.append_assoc]⟩
  rw [sentence_iff_run?, State.run?_append, h]
  exact hmore

/-- Where a silent run cannot go on, what it went over is not viable together with the next token,
    unless the line may end there and does. -/
theorem not_viable_of_step? {kinds : List Kind} {kind : Kind} {state : State}
    (h : State.start.run? kinds = some state) (hstep : state.step? kind = none)
    (hend : ¬ (state = .final ∧ kind = .finish)) : ¬ Viable (kinds ++ [kind]) := by
  rintro ⟨more, sentence, hsentence, heq⟩
  rw [sentence_iff_run?] at hsentence
  rw [List.append_assoc] at heq
  rcases List.append_eq_append_iff.mp heq with ⟨others, rfl, hothers⟩ | ⟨others, rfl, hothers⟩
  · -- The sentence goes on from where the run stands.
    rw [State.run?_append, h] at hsentence
    cases others with
    | nil =>
        have hkind : kind = .finish := (List.cons.inj hothers).1
        exact hend ⟨Option.some.inj hsentence, hkind⟩
    | cons other others =>
        obtain rfl : kind = other := (List.cons.inj hothers).1
        simp [hstep] at hsentence
  · -- The run has gone over the sentence, and the end of the line as well if it went further.
    cases others with
    | nil =>
        have hkind : Kind.finish = kind := (List.cons.inj hothers).1
        rw [List.append_nil, hsentence] at h
        exact hend ⟨(Option.some.inj h).symm, hkind.symm⟩
    | cons other others =>
        obtain rfl : Kind.finish = other := (List.cons.inj hothers).1
        exact State.kind_ne_finish_of_run? h (by simp)

end Grammar

open Grammar

/-!
### The first report
-/

namespace Sweep

/-- A report is about a token, given the leaves from there on and the end token of the line. Either it
    says that the token is not of the kind of the empty token that stands in its place, or the token
    opens a group that is nested too deep, and an empty number stands for the content of the group. -/
inductive Concerns (token : Token) : List Token → Report → Prop where
  | missing (kind : Kind) (behind : List Token) :
      Concerns token (.missing kind token.position :: behind)
        (.unexpected token.kind.name kind.name)
  | tooDeep (hkind : token.kind = .opening) (place : Int) (behind : List Token) :
      Concerns token (token :: .missing .number place :: behind) (.tooDeep token.position 128)

/-- A sweep that cannot go on silently reports the next token at once, unless it is at the end of the
    line and may end. -/
theorem exists_concerns {stop : Int} {state : State} {tokens : List Token}
    (h : state.step? (upcoming stop tokens).kind = none)
    (hend : ¬ (state = .final ∧ (upcoming stop tokens).kind = .finish)) :
    let output := sweep stop state.mode state.groups tokens
    ∃ first others, output.reports = first :: others ∧
      Concerns (upcoming stop tokens) (output.leaves ++ [output.finish]) first := by
  obtain ⟨mode, groups⟩ := state
  intro output
  cases mode with
  | operand =>
      obtain ⟨hnumber, hfull⟩ := State.step?_operand_eq_none_iff.mp h
      by_cases hopening : (upcoming stop tokens).kind = .opening
      · cases hmatching : matching? tokens.tail with
        | none =>
            have houtput : output = _ := sweep_unclosed hopening (hfull hopening) hmatching
            rw [houtput]
            exact ⟨_, _, rfl, .tooDeep hopening _ _⟩
        | some i =>
            obtain ⟨closing, hclosing, -, -⟩ := exists_closing_of_matching? hmatching
            have houtput : output = _ :=
              sweep_skipped hopening (hfull hopening) hmatching hclosing
            rw [houtput]
            exact ⟨_, _, rfl, .tooDeep hopening _ _⟩
      · have houtput : output = _ := sweep_missing hopening hnumber
        rw [houtput]
        exact ⟨_, _, rfl, .missing .number _⟩
  | operator =>
      obtain ⟨hoperator, hclosing⟩ := State.step?_operator_eq_none_iff.mp h
      have houtput : output = halt groups (upcoming stop tokens) :=
        sweep_halt ((clear_iff_upcoming stop rfl tokens).mpr hoperator) hclosing
      rw [houtput]
      cases groups with
      | zero =>
          have hfinish : (upcoming stop tokens).kind ≠ .finish := fun hkind => hend ⟨rfl, hkind⟩
          rw [halt, if_neg hfinish]
          exact ⟨_, _, rfl, .missing .finish _⟩
      | succ groups =>
          rw [halt_succ]
          exact ⟨_, _, rfl, .missing .closing _⟩

/-- Some tokens with the end of the line behind them fall into those over which a run goes and those
    from where it cannot go on. -/
theorem State.exists_run?_append (state : State) (stop : Int) (tokens : List Token) :
    ∃ before behind last, tokens = before ++ behind ∧
      state.run? (before.map Token.kind) = some last ∧
      last.step? (upcoming stop behind).kind = none := by
  induction tokens generalizing state with
  | nil => exact ⟨[], [], state, rfl, rfl, step?_finish state⟩
  | cons token tokens ih =>
      cases hstep : state.step? token.kind with
      | none => exact ⟨[], token :: tokens, state, rfl, rfl, hstep⟩
      | some next =>
          obtain ⟨before, behind, last, rfl, hrun, hlast⟩ := ih next
          exact ⟨token :: before, behind, last, rfl, by simp [hstep, hrun], hlast⟩

end Sweep

/-- Where a line may end and does, a sweep reports nothing. -/
theorem reports_sweep_of_finish {stop : Int} {tokens : List Token}
    (h : (upcoming stop tokens).kind = .finish) : (sweep stop .operator 0 tokens).reports = [] := by
  have hclear : Clear Kind.isOperator tokens := by
    rw [clear_iff_upcoming stop rfl, h]
    rfl
  rw [sweep_halt hclear fun _ => rfl, Sweep.halt, if_pos h]
  rfl

/-- The token that comes next stands in front of some others, with the end of the line among them. -/
theorem exists_append_finish_eq_cons (stop : Int) (tokens : List Token) :
    ∃ others, tokens ++ [Token.finish stop] = upcoming stop tokens :: others := by
  cases tokens with
  | nil => exact ⟨[], rfl⟩
  | cons token tokens => exact ⟨tokens ++ [Token.finish stop], rfl⟩

/-- A sweep that reports something hands out the tokens over which a silent run goes, and its first
    report is about the token at which the run cannot go on. -/
theorem exists_concerns_of_reports {stop : Int} {tokens : List Token} {first : Report}
    {others : List Report} (h : (sweep stop .operand 0 tokens).reports = first :: others) :
    ∃ before token behind state leaves,
      tokens ++ [Token.finish stop] = before ++ token :: behind ∧
      State.start.run? (before.map Token.kind) = some state ∧ state.step? token.kind = none ∧
      ¬ (state = .final ∧ token.kind = .finish) ∧
      (sweep stop .operand 0 tokens).leaves ++ [(sweep stop .operand 0 tokens).finish] =
        before ++ leaves ∧
      Sweep.Concerns token leaves first := by
  obtain ⟨before, behind, state, rfl, hrun, hstuck⟩ := State.start.exists_run?_append stop tokens
  obtain ⟨rest, hrest⟩ := exists_append_finish_eq_cons stop behind
  have hswept : sweep stop .operand 0 (before ++ behind) =
      (sweep stop state.mode state.groups behind).after before [] := sweep_of_run? hrun stop behind
  rw [hswept] at h ⊢
  have hend : ¬ (state = .final ∧ (upcoming stop behind).kind = .finish) := by
    rintro ⟨rfl, hkind⟩
    have hnone : (sweep stop .operator 0 behind).reports = [] := reports_sweep_of_finish hkind
    simp [Sweep.Output.after, State.final, hnone] at h
  obtain ⟨report, further, hreports, hconcerns⟩ := Sweep.exists_concerns hstuck hend
  have hfirst : report = first := by
    simp only [Sweep.Output.after, List.nil_append, hreports, List.cons.injEq] at h
    exact h.1
  refine ⟨before, _, rest, state, _, ?_, hrun, hstuck, hend, ?_, hfirst ▸ hconcerns⟩
  · rw [List.append_assoc, hrest]
  · exact List.append_assoc _ _ _

namespace Tree

/-- The first empty token of a tree is the one by which the first report of the reading is explained:
    it is behind the tokens that were read silently. -/
theorem find?_empty_of_concerns {before leaves : List Token} {token : Token} {report : Report}
    (hbefore : ∀ token ∈ before, token.text ≠ "") (htoken : token.text ≠ "")
    (h : Sweep.Concerns token leaves report) :
    ∃ hole, (before ++ leaves).find? (fun leaf => leaf.text = "") = some hole ∧
      (report = .unexpected token.kind.name hole.kind.name ∧ hole.position = token.position ∨
        report = .tooDeep token.position 128 ∧ token.kind = .opening) := by
  have hnone : before.find? (fun leaf => leaf.text = "") = none := by
    simpa using hbefore
  cases h with
  | missing kind behind =>
      refine ⟨.missing kind token.position, ?_, .inl ⟨rfl, rfl⟩⟩
      rw [List.find?_append, hnone]
      rfl
  | tooDeep hkind place behind =>
      refine ⟨.missing .number place, ?_, .inr ⟨rfl, hkind⟩⟩
      rw [List.find?_append, hnone, List.find?_cons_of_neg (by simpa using htoken)]
      rfl

/-- Errors are reported at the earliest possible token. If reading a line reports anything behind the
    reports of the scan, the first of these reports is about one of the tokens of the line, blanks and
    bad characters left out and the end token included. It is the token at the place of the first empty
    token among the leaves and the end token of the tree, or, if the report says that a group is nested
    too deep, the parenthesis that opens the group. The tokens in front of it are viable, and with it
    they are not. -/
theorem first_report_earliest {line : String} {first : Report} {others : List Report}
    (h : (ofLine line).reports = (Scanner.ofLine line).tokens.reports ++ first :: others) :
    ∃ before token behind hole,
      (Token.scan line).filter (fun token => !token.kind.isSkipped) = before ++ token :: behind ∧
      ((ofLine line).root.leaves ++ [(ofLine line).finish]).find? (fun leaf => leaf.text = "") =
        some hole ∧
      (first = .unexpected token.kind.name hole.kind.name ∧ hole.position = token.position ∨
        first = .tooDeep token.position 128 ∧ token.kind = .opening) ∧
      Viable (before.map Token.kind) ∧ ¬ Viable (before.map Token.kind ++ [token.kind]) := by
  obtain ⟨hlexemes, hleaves, hfinish, hreports⟩ := ofLine_eq_sweep line
  rw [h] at hreports
  obtain ⟨before, token, behind, state, leaves, htokens, hrun, hstuck, hend, hhanded, hconcerns⟩ :=
    exists_concerns_of_reports (List.append_cancel_left hreports).symm
  rw [hlexemes] at htokens
  have htext : ∀ other ∈ before ++ token :: behind, other.text ≠ "" := by
    rw [← htokens, ← hlexemes]
    exact (Lexemes.legible_withFinish line).text_ne
  have hbefore : ∀ other ∈ before, other.text ≠ "" := fun other hmem => htext other (by simp [hmem])
  obtain ⟨hole, hhole, habout⟩ :=
    find?_empty_of_concerns hbefore (htext token (by simp)) hconcerns
  refine ⟨before, token, behind, hole, htokens, ?_, habout, viable_of_run? hrun,
    not_viable_of_step? hrun hstuck hend⟩
  rw [hleaves, hfinish, hhanded, hhole]

/-- A group that ends behind an operator, with a further token behind the group. -/
theorem first_report_earliest_operator :
    let line := "2 * (3 + ) 4"
    let first : Report := .unexpected "CloseParenthesisToken" "NumberToken"
    (ofLine line).reports = (Scanner.ofLine line).tokens.reports ++
        [first, .unexpected "NumberToken" "EndOfInputToken"] ∧
      ∃ before token behind hole,
        (Token.scan line).filter (fun token => !token.kind.isSkipped) =
          before ++ token :: behind ∧
        ((ofLine line).root.leaves ++ [(ofLine line).finish]).find? (fun leaf => leaf.text = "") =
          some hole ∧
        (first = .unexpected token.kind.name hole.kind.name ∧ hole.position = token.position ∨
          first = .tooDeep token.position 128 ∧ token.kind = .opening) ∧
        Viable (before.map Token.kind) ∧ ¬ Viable (before.map Token.kind ++ [token.kind]) := by
  intro line first
  have h : (ofLine line).reports = (Scanner.ofLine line).tokens.reports ++
      [first, .unexpected "NumberToken" "EndOfInputToken"] := by decide +kernel
  exact ⟨h, first_report_earliest h⟩

end Tree

end Reckoner
