/-
Module: Reckoner.Proofs.Tree.Sweep
Layer: Proofs
Purpose: Reading a line in one sweep. An automaton with two modes and one counter goes over the tokens
  of a line from left to right and hands out the leaves of its tree: it keeps the tokens that fit, and
  puts an empty token where one is missing. It knows nothing of phrases; the counter is the number of
  groups that are open. The readers of phrases, each of which calls others, give the same leaves, the
  same end token and the same reports, on every line.
Main exports: Sweep.Mode, Sweep.Output, Sweep.halt, sweep, Course.sweep_eq, Tree.ofLine_eq_sweep
-/
import Reckoner.Proofs.Tree.Acceptance
import Reckoner.Proofs.Tree.Course
import Reckoner.Proofs.Tree.Matching

namespace Reckoner

open Grammar

/-!
### The automaton
-/

namespace Sweep

/-- What the sweep looks for: an operand, or else what may come behind an operand. -/
inductive Mode where
  | operand
  | operator
deriving DecidableEq, Repr

/-- An operand that is looked for can be given up without going further. -/
def Mode.patience : Mode → Nat
  | operand => 1
  | operator => 0

/-- What a sweep hands out: leaves, the token that ends the line, and reports. -/
structure Output where
  leaves : List Token
  finish : Token
  reports : List Report

/-- The same output with leaves and reports that were handed out earlier. -/
def Output.after (leaves : List Token) (reports : List Report) (output : Output) : Output :=
  ⟨leaves ++ output.leaves, output.finish, reports ++ output.reports⟩

@[simp] theorem Output.after_after (leaves others : List Token) (reports further : List Report)
    (output : Output) :
    (output.after others further).after leaves reports =
      output.after (leaves ++ others) (reports ++ further) := by
  simp [after]

/-- The end of a sweep at a token that does not fit, while some groups are open: all of them are
    closed by empty tokens, and the line ends with this token if it is the end token. -/
def halt (groups : Nat) (token : Token) : Output :=
  if token.kind = .finish then
    ⟨List.replicate groups (.missing .closing token.position), token,
      List.replicate groups (.unexpected token.kind.name Kind.closing.name)⟩
  else
    ⟨List.replicate groups (.missing .closing token.position), .missing .finish token.position,
      List.replicate groups (.unexpected token.kind.name Kind.closing.name) ++
        [.unexpected token.kind.name Kind.finish.name]⟩

end Sweep

/-- A token of some kind but the end is one of those that are left. -/
theorem length_tail_lt_of_kind {stop : Int} {tokens : List Token}
    (h : (upcoming stop tokens).kind ≠ .finish) : tokens.tail.length < tokens.length := by
  cases tokens with
  | nil => exact absurd rfl h
  | cons token behind => simp

/-- Sweeps over the tokens of a line, which ends at `stop`, while `groups` groups are open.

    An operand is a number, or a group. A group is opened as long as fewer than 128 are open. One
    that is nested deeper is left out up to its closing parenthesis, and an empty number stands for
    its content; if nothing closes it, an empty parenthesis does. Where no operand starts, an empty
    number stands for one. Behind an operand an operator goes on to the next one, and a closing
    parenthesis closes a group that is open. Anything else ends the sweep. -/
def sweep (stop : Int) (mode : Sweep.Mode) (groups : Nat) (tokens : List Token) : Sweep.Output :=
  let token := upcoming stop tokens
  match mode with
  | .operand =>
      if token.kind = .opening then
        if groups < 128 then
          (sweep stop .operand (groups + 1) tokens.tail).after [token] []
        else
          let hole := Token.missing .number (upcoming stop tokens.tail).position
          match matching? tokens.tail with
          | some i =>
              (sweep stop .operator groups (tokens.tail.drop (i + 1))).after
                (token :: hole :: tokens.tail[i]?.toList) [.tooDeep token.position 128]
          | none =>
              (sweep stop .operator groups []).after
                [token, hole, .missing .closing stop]
                [.tooDeep token.position 128, .unexpected Kind.finish.name Kind.closing.name]
      else if token.kind = .number then
        (sweep stop .operator groups tokens.tail).after [token] []
      else
        (sweep stop .operator groups tokens).after [.missing .number token.position]
          [.unexpected token.kind.name Kind.number.name]
  | .operator =>
      if token.kind.isOperator then
        (sweep stop .operand groups tokens.tail).after [token] []
      else if token.kind = .closing ∧ 0 < groups then
        (sweep stop .operator (groups - 1) tokens.tail).after [token] []
      else
        Sweep.halt groups token
termination_by 2 * tokens.length + mode.patience
decreasing_by
  all_goals simp only [Sweep.Mode.patience, List.length_drop, List.length_nil]
  · next hopening _ =>
      have hkind : (upcoming stop tokens).kind ≠ .finish := by rw [hopening]; decide
      have := length_tail_lt_of_kind hkind
      omega
  · have := tokens.length_tail
    omega
  · omega
  · have := tokens.length_tail
    omega
  · omega
  · next hoperator =>
      have := length_tail_lt_of_kind (Kind.ne_of_isOperator hoperator rfl)
      omega
  · next hclosing =>
      have hkind : (upcoming stop tokens).kind ≠ .finish := by rw [hclosing.1]; decide
      have := length_tail_lt_of_kind hkind
      omega

/-!
### One step at a time
-/

/-- The token that comes next is not of some kinds exactly if none of these kinds comes next, the end
    token not being of these kinds. -/
theorem clear_iff_upcoming (stop : Int) {p : Kind → Bool} (hfinish : p .finish = false)
    (tokens : List Token) : Clear p tokens ↔ p (upcoming stop tokens).kind = false := by
  cases tokens with
  | nil => simp [upcoming, Token.finish, hfinish]
  | cons token behind => simp [upcoming]

section

variable {stop : Int} {groups : Nat} {tokens : List Token}

/-- A group is opened as long as there is room for it. -/
theorem sweep_opening (h : (upcoming stop tokens).kind = .opening) (hgroups : groups < 128) :
    sweep stop .operand groups tokens =
      (sweep stop .operand (groups + 1) tokens.tail).after [upcoming stop tokens] [] := by
  conv => lhs; rw [sweep]
  simp [h, hgroups]

theorem sweep_number (h : (upcoming stop tokens).kind = .number) :
    sweep stop .operand groups tokens =
      (sweep stop .operator groups tokens.tail).after [upcoming stop tokens] [] := by
  conv => lhs; rw [sweep]
  simp [h]

theorem sweep_missing (hopening : (upcoming stop tokens).kind ≠ .opening)
    (hnumber : (upcoming stop tokens).kind ≠ .number) :
    sweep stop .operand groups tokens =
      (sweep stop .operator groups tokens).after
        [.missing .number (upcoming stop tokens).position]
        [.unexpected (upcoming stop tokens).kind.name Kind.number.name] := by
  conv => lhs; rw [sweep]
  simp [hopening, hnumber]

theorem sweep_isOperator (h : (upcoming stop tokens).kind.isOperator = true) :
    sweep stop .operator groups tokens =
      (sweep stop .operand groups tokens.tail).after [upcoming stop tokens] [] := by
  conv => lhs; rw [sweep]
  simp [h]

/-- A closing parenthesis closes a group that is open. -/
theorem sweep_closing (h : (upcoming stop tokens).kind = .closing) :
    sweep stop .operator (groups + 1) tokens =
      (sweep stop .operator groups tokens.tail).after [upcoming stop tokens] [] := by
  have hoperator : Kind.isOperator .closing = false := rfl
  conv => lhs; rw [sweep]
  simp [h, hoperator]

theorem sweep_halt (hoperator : Clear Kind.isOperator tokens)
    (hclosing : (upcoming stop tokens).kind = .closing → groups = 0) :
    sweep stop .operator groups tokens = Sweep.halt groups (upcoming stop tokens) := by
  have hnot := (clear_iff_upcoming stop rfl tokens).mp hoperator
  have hnone : ¬ ((upcoming stop tokens).kind = .closing ∧ 0 < groups) := by
    rintro ⟨hkind, hopen⟩
    exact absurd (hclosing hkind) (Nat.ne_of_gt hopen)
  rw [sweep]
  simp [hnot, hnone]

/-- A group that is nested too deep is left out up to the matching parenthesis. -/
theorem sweep_skipped {i : Nat} {closing : Token} (h : (upcoming stop tokens).kind = .opening)
    (hgroups : 128 ≤ groups) (hmatching : matching? tokens.tail = some i)
    (hclosing : tokens.tail[i]? = some closing) :
    sweep stop .operand groups tokens =
      (sweep stop .operator groups (tokens.tail.drop (i + 1))).after
        [upcoming stop tokens, .missing .number (upcoming stop tokens.tail).position, closing]
        [.tooDeep (upcoming stop tokens).position 128] := by
  conv => lhs; rw [sweep]
  simp only [h, if_pos, Nat.not_lt.mpr hgroups, if_false, hmatching, hclosing, Option.toList_some]

/-- A group that is nested too deep and is not closed is left out up to the end of the line. -/
theorem sweep_unclosed (h : (upcoming stop tokens).kind = .opening) (hgroups : 128 ≤ groups)
    (hmatching : matching? tokens.tail = none) :
    sweep stop .operand groups tokens =
      (sweep stop .operator groups []).after
        [upcoming stop tokens, .missing .number (upcoming stop tokens.tail).position,
          .missing .closing stop]
        [.tooDeep (upcoming stop tokens).position 128,
          .unexpected Kind.finish.name Kind.closing.name] := by
  conv => lhs; rw [sweep]
  simp only [h, if_pos, Nat.not_lt.mpr hgroups, if_false, hmatching]

/-- What every step of a sweep keeps holds of the whole sweep. There is one case for each step, with
    what the step goes on to. -/
@[elab_as_elim] theorem sweep_induction {motive : Sweep.Mode → Nat → List Token → Prop} (stop : Int)
    (opening : ∀ groups tokens, (upcoming stop tokens).kind = .opening → groups < 128 →
      motive .operand (groups + 1) tokens.tail → motive .operand groups tokens)
    (skipped : ∀ groups tokens i, (upcoming stop tokens).kind = .opening → 128 ≤ groups →
      matching? tokens.tail = some i → motive .operator groups (tokens.tail.drop (i + 1)) →
        motive .operand groups tokens)
    (unclosed : ∀ groups tokens, (upcoming stop tokens).kind = .opening → 128 ≤ groups →
      matching? tokens.tail = none → motive .operator groups [] → motive .operand groups tokens)
    (number : ∀ groups tokens, (upcoming stop tokens).kind = .number →
      motive .operator groups tokens.tail → motive .operand groups tokens)
    (missing : ∀ groups tokens, (upcoming stop tokens).kind ≠ .opening →
      (upcoming stop tokens).kind ≠ .number → motive .operator groups tokens →
        motive .operand groups tokens)
    (operator : ∀ groups tokens, (upcoming stop tokens).kind.isOperator = true →
      motive .operand groups tokens.tail → motive .operator groups tokens)
    (closing : ∀ groups tokens, (upcoming stop tokens).kind = .closing →
      motive .operator groups tokens.tail → motive .operator (groups + 1) tokens)
    (halt : ∀ groups tokens, Clear Kind.isOperator tokens →
      ((upcoming stop tokens).kind = .closing → groups = 0) → motive .operator groups tokens)
    (mode : Sweep.Mode) (groups : Nat) (tokens : List Token) : motive mode groups tokens := by
  fun_induction sweep stop mode groups tokens with
  | case1 groups tokens token hopening hroom ih => exact opening groups tokens hopening hroom ih
  | case2 groups tokens token hopening hroom hole i hmatching ih =>
      exact skipped groups tokens i hopening (Nat.le_of_not_lt hroom) hmatching ih
  | case3 groups tokens token hopening hroom hole hmatching ih =>
      exact unclosed groups tokens hopening (Nat.le_of_not_lt hroom) hmatching ih
  | case4 groups tokens token _ hnumber ih => exact number groups tokens hnumber ih
  | case5 groups tokens token hopening hnumber ih =>
      exact missing groups tokens hopening hnumber ih
  | case6 groups tokens token hoperator ih => exact operator groups tokens hoperator ih
  | case7 groups tokens token _ hclosing ih =>
      obtain ⟨outer, rfl⟩ := Nat.exists_eq_succ_of_ne_zero (Nat.ne_of_gt hclosing.2)
      exact closing outer tokens hclosing.1 ih
  | case8 groups tokens token hoperator hnone =>
      rw [Bool.not_eq_true] at hoperator
      refine halt groups tokens ((clear_iff_upcoming stop rfl tokens).mpr hoperator) ?_
      intro hclosing
      exact Nat.eq_zero_of_not_pos fun hopen => hnone ⟨hclosing, hopen⟩

/-- Halting with one more open group closes it by an empty token in front. -/
theorem Sweep.halt_succ (groups : Nat) (token : Token) :
    halt (groups + 1) token =
      (halt groups token).after [.missing .closing token.position]
        [.unexpected token.kind.name Kind.closing.name] := by
  unfold halt
  split
  · simp [Output.after, List.replicate_succ]
  · simp [Output.after, List.replicate_succ]

end

/-!
### The readers and the sweep
-/

/-- A token that is expected to close a group is handed out by the sweep, whether it is there or
    missing, provided that no operator comes next. -/
theorem sweep_expect_closing {stop : Int} {groups : Nat} {tokens : List Token}
    (hclear : Clear Kind.isOperator tokens) :
    let closing := expect stop .closing tokens
    sweep stop .operator (groups + 1) tokens =
      (sweep stop .operator groups closing.rest).after [closing.token] closing.reports := by
  intro closing
  by_cases hkind : (upcoming stop tokens).kind = .closing
  · have hfound : closing = ⟨upcoming stop tokens, tokens.tail, []⟩ := if_pos hkind
    rw [hfound]
    exact sweep_closing hkind
  · have hfound : closing = ⟨.missing .closing (upcoming stop tokens).position, tokens,
        [.unexpected (upcoming stop tokens).kind.name Kind.closing.name]⟩ := if_neg hkind
    have hhalt : ∀ count, sweep stop .operator count tokens =
        Sweep.halt count (upcoming stop tokens) :=
      fun count => sweep_halt hclear fun h => absurd h hkind
    rw [hfound, hhalt, hhalt]
    exact Sweep.halt_succ groups _

/-- A number is handed out by the sweep, whether it is there or missing, provided that no group
    starts. -/
theorem sweep_readNumeral {stop : Int} {groups : Nat} {tokens : List Token}
    (hclear : Clear (fun kind => kind = .opening) tokens) :
    let number := readNumeral stop tokens
    sweep stop .operand groups tokens =
      (sweep stop .operator groups number.rest).after number.tree.leaves number.reports := by
  intro number
  have hopening : (upcoming stop tokens).kind ≠ .opening := by
    simpa using (clear_iff_upcoming stop rfl tokens).mp hclear
  by_cases hkind : (upcoming stop tokens).kind = .number
  · have hfound : expect stop .number tokens = ⟨upcoming stop tokens, tokens.tail, []⟩ :=
      if_pos hkind
    simp only [number, readNumeral, hfound, Expr.leaves]
    exact sweep_number hkind
  · have hfound : expect stop .number tokens =
        ⟨.missing .number (upcoming stop tokens).position, tokens,
          [.unexpected (upcoming stop tokens).kind.name Kind.number.name]⟩ := if_neg hkind
    simp only [number, readNumeral, hfound, Expr.leaves]
    exact sweep_missing hopening hkind

/-- A group that is skipped reaches to the matching parenthesis. -/
theorem skipGroup_of_matching? {stop : Int} {opening closing : Token} {behind : List Token} {i : Nat}
    (hmatching : matching? behind = some i) (hclosing : behind[i]? = some closing) :
    skipGroup stop opening behind =
      ⟨.group opening (.numeral (.missing .number (upcoming stop behind).position)) closing,
        behind.drop (i + 1), [.tooDeep opening.position 128]⟩ := by
  obtain ⟨same, hsame, hkind, -⟩ := exists_closing_of_matching? hmatching
  obtain rfl : closing = same := Option.some.inj (hclosing.symm.trans hsame)
  obtain ⟨hi, hget⟩ := List.getElem?_eq_some_iff.mp hclosing
  simp only [skipGroup, dropGroup_of_matching? hmatching, List.drop_eq_getElem_cons hi, hget,
    expect_of_kind hkind]
  rfl

/-- A group that is skipped and not closed reaches to the end of the line. -/
theorem skipGroup_of_matching?_eq_none {stop : Int} {opening : Token} {behind : List Token}
    (hmatching : matching? behind = none) :
    skipGroup stop opening behind =
      ⟨.group opening (.numeral (.missing .number (upcoming stop behind).position))
        (.missing .closing stop), [], [.tooDeep opening.position 128,
          .unexpected Kind.finish.name Kind.closing.name]⟩ := by
  simp only [skipGroup, dropGroup_of_matching?_eq_none hmatching]
  rfl

/-- A group for which there is no room is handed out by the sweep, without its content. -/
theorem sweep_skipGroup {stop : Int} {groups : Nat} {opening : Token} {behind : List Token}
    (hopening : opening.kind = .opening) (hgroups : 128 ≤ groups) :
    let skipped := skipGroup stop opening behind
    sweep stop .operand groups (opening :: behind) =
      (sweep stop .operator groups skipped.rest).after skipped.tree.leaves skipped.reports := by
  intro skipped
  cases hmatching : matching? behind with
  | none =>
      simp only [skipped, skipGroup_of_matching?_eq_none hmatching]
      exact sweep_unclosed hopening hgroups hmatching
  | some i =>
      obtain ⟨closing, hclosing, -, -⟩ := exists_closing_of_matching? hmatching
      simp only [skipped, skipGroup_of_matching? hmatching hclosing]
      exact sweep_skipped hopening hgroups hmatching hclosing

/-- Where the readers read a phrase, the sweep hands out its leaves and its reports and goes on
    behind it. The groups that are open and those for which there is room are always 128. -/
theorem Course.sweep_eq {stop : Int} {rank : Rank} {room : Nat} {tokens : List Token}
    {phrase : Phrase} (h : Course stop rank room tokens phrase) {groups : Nat}
    (hroom : groups + room = 128) :
    sweep stop .operand groups tokens =
      (sweep stop .operator groups phrase.rest).after phrase.tree.leaves phrase.reports := by
  induction h generalizing groups with
  | number hclear => exact sweep_readNumeral hclear
  | skipped hopening => exact sweep_skipGroup hopening (Nat.le_of_eq hroom.symm)
  | @group room opening behind inner hopening hinner hclear ih =>
      have hgroups : groups < 128 := by omega
      have hstart : sweep stop .operand groups (opening :: behind) =
          (sweep stop .operand (groups + 1) behind).after [opening] [] :=
        sweep_opening hopening hgroups
      rw [hstart, ih (by omega), sweep_expect_closing hclear]
      simp [Phrase.enclosed, Expr.leaves]
  | operand h ih => exact ih hroom
  | @join rank room tokens behind left right operator hleft hrest hjoins hright ihleft ihright =>
      have hoperator : sweep stop .operator groups (operator :: behind) =
          (sweep stop .operand groups behind).after [operator] [] :=
        sweep_isOperator (Rank.isOperator_of_joins hjoins)
      rw [ihleft hroom, hrest, hoperator, ihright hroom]
      simp [Phrase.join, Expr.leaves]

/-!
### Whole lines
-/

/-- The sweep ends where no operator and no open group goes on. -/
theorem sweep_zero_of_clear {stop : Int} {tokens : List Token}
    (hclear : Clear Kind.isOperator tokens) :
    let finish := expect stop .finish tokens
    sweep stop .operator 0 tokens = ⟨[], finish.token, finish.reports⟩ := by
  intro finish
  rw [sweep_halt hclear (fun _ => rfl), Sweep.halt]
  by_cases hkind : (upcoming stop tokens).kind = .finish
  · have hfound : finish = ⟨upcoming stop tokens, tokens.tail, []⟩ := if_pos hkind
    simp [hfound, hkind]
  · have hfound : finish = ⟨.missing .finish (upcoming stop tokens).position, tokens,
        [.unexpected (upcoming stop tokens).kind.name Kind.finish.name]⟩ := if_neg hkind
    simp [hfound, hkind]

namespace Tree

/-- The tree of a list of lexemes has the leaves, the end token and, behind those of the scan, the
    reports of the sweep. -/
theorem ofLexemes_eq_sweep (lexemes : Lexemes) :
    let output := sweep lexemes.stop .operand 0 lexemes.tokens
    (ofLexemes lexemes).root.leaves = output.leaves ∧
      (ofLexemes lexemes).finish = output.finish ∧
      (ofLexemes lexemes).reports = lexemes.reports ++ output.reports := by
  intro output
  have hread := (course_term lexemes.stop nestingLimit lexemes.tokens).sweep_eq (Nat.zero_add 128)
  have hclear := clear_rest_term lexemes.stop nestingLimit lexemes.tokens
  rw [sweep_zero_of_clear hclear] at hread
  simp only [output, hread, Sweep.Output.after, ofLexemes]
  simp

/-- Reading a line is sweeping over its tokens, blanks and bad characters left out: on every line,
    well formed or not, the leaves of the tree with the empty ones among them, and the token that
    ends the line, are those that the sweep hands out. So are the reports, behind those of the scan.
    -/
theorem ofLine_eq_sweep (line : String) :
    let lexemes := Lexemes.ofLine line
    let output := sweep lexemes.stop .operand 0 lexemes.tokens
    lexemes.tokens ++ [Token.finish lexemes.stop] =
        (Token.scan line).filter (fun token => !token.kind.isSkipped) ∧
      (ofLine line).root.leaves = output.leaves ∧
      (ofLine line).finish = output.finish ∧
      (ofLine line).reports = (Scanner.ofLine line).tokens.reports ++ output.reports :=
  ⟨Lexemes.withFinish_ofLine line, ofLexemes_eq_sweep (Lexemes.ofLine line)⟩

end Tree

end Reckoner
