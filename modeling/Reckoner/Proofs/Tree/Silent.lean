/-
Module: Reckoner.Proofs.Tree.Silent
Layer: Proofs
Purpose: Reading without a report. As long as a sweep has nothing to report, each of its steps is
  settled by the kind of the next token, by what the sweep looks for and by the number of open groups,
  and there is at most one such step. The runs of these silent steps from the start to where a line
  may end go over exactly the leaves of the trees of the grammar in which groups are nested at most
  128 deep; so whether some tokens are such leaves can be told by running over their kinds.
Main exports: Sweep.State, State.step?, State.run?, State.step?_cases, sweep_of_run?,
  State.run?_leaves, State.eq_of_run?_leaves, Sweep.run?_eq_final_iff
-/
import Reckoner.Proofs.Tree.Sweep

namespace Reckoner

open Grammar

namespace Sweep

/-- What a sweep knows that has reported nothing so far: what it looks for, and how many groups are
    open. -/
structure State where
  mode : Mode
  groups : Nat
deriving DecidableEq, Repr

namespace State

def start : State :=
  ⟨.operand, 0⟩

/-- The state in which a line may end. -/
def final : State :=
  ⟨.operator, 0⟩

/-- The step over a token of some kind that needs no report, if there is one. -/
def step? (state : State) (kind : Kind) : Option State :=
  match state.mode with
  | .operand =>
      if kind = .opening ∧ state.groups < 128 then some ⟨.operand, state.groups + 1⟩
      else if kind = .number then some ⟨.operator, state.groups⟩
      else none
  | .operator =>
      if kind.isOperator then some ⟨.operand, state.groups⟩
      else if kind = .closing ∧ 0 < state.groups then some ⟨.operator, state.groups - 1⟩
      else none

/-- The run of such steps over tokens of some kinds, if it goes over all of them. -/
def run? (state : State) (kinds : List Kind) : Option State :=
  kinds.foldlM step? state

@[simp] theorem run?_nil (state : State) : state.run? [] = some state := rfl

@[simp] theorem run?_cons (state : State) (kind : Kind) (kinds : List Kind) :
    state.run? (kind :: kinds) = (state.step? kind).bind fun next => next.run? kinds :=
  List.foldlM_cons

@[simp] theorem run?_append (state : State) (kinds others : List Kind) :
    state.run? (kinds ++ others) = (state.run? kinds).bind fun next => next.run? others :=
  List.foldlM_append

/-!
### What a step can be
-/

section

variable {state next : State} {kind : Kind} {groups : Nat}

/-- There are four sorts of steps. -/
theorem step?_cases (h : state.step? kind = some next) :
    (∃ groups < 128, kind = .opening ∧ state = ⟨.operand, groups⟩ ∧
        next = ⟨.operand, groups + 1⟩) ∨
      (∃ groups, kind = .number ∧ state = ⟨.operand, groups⟩ ∧ next = ⟨.operator, groups⟩) ∨
      (∃ groups, kind.isOperator = true ∧ state = ⟨.operator, groups⟩ ∧
        next = ⟨.operand, groups⟩) ∨
      ∃ groups, kind = .closing ∧ state = ⟨.operator, groups + 1⟩ ∧
        next = ⟨.operator, groups⟩ := by
  obtain ⟨mode, groups⟩ := state
  cases mode with
  | operand =>
      simp only [step?] at h
      split at h
      · next hopening => exact .inl ⟨groups, hopening.2, hopening.1, rfl, (Option.some.inj h).symm⟩
      · split at h
        · next hnumber => exact .inr (.inl ⟨groups, hnumber, rfl, (Option.some.inj h).symm⟩)
        · exact absurd h (by simp)
  | operator =>
      simp only [step?] at h
      split at h
      · next hoperator =>
          exact .inr (.inr (.inl ⟨groups, hoperator, rfl, (Option.some.inj h).symm⟩))
      · split at h
        · next hclosing =>
            obtain ⟨outer, rfl⟩ := Nat.exists_eq_succ_of_ne_zero (Nat.ne_of_gt hclosing.2)
            exact .inr (.inr (.inr ⟨outer, hclosing.1, rfl, (Option.some.inj h).symm⟩))
        · exact absurd h (by simp)

@[simp] theorem step?_opening (h : groups < 128) :
    step? ⟨.operand, groups⟩ .opening = some ⟨.operand, groups + 1⟩ := by
  simp [step?, h]

@[simp] theorem step?_number : step? ⟨.operand, groups⟩ .number = some ⟨.operator, groups⟩ := by
  simp [step?]

@[simp] theorem step?_isOperator (h : kind.isOperator = true) :
    step? ⟨.operator, groups⟩ kind = some ⟨.operand, groups⟩ := by
  simp [step?, h]

@[simp] theorem step?_closing :
    step? ⟨.operator, groups + 1⟩ .closing = some ⟨.operator, groups⟩ := by
  simp [step?, Kind.isOperator, Kind.isAdditive, Kind.isMultiplicative]

theorem step?_finish (state : State) : state.step? .finish = none := by
  obtain ⟨mode, groups⟩ := state
  cases mode with
  | operand => simp [step?]
  | operator => simp [step?, Kind.isOperator, Kind.isAdditive, Kind.isMultiplicative]

theorem of_step?_number (h : state.step? .number = some next) :
    state.mode = .operand ∧ next = ⟨.operator, state.groups⟩ := by
  rcases step?_cases h with ⟨_, _, hkind, _⟩ | ⟨groups, _, rfl, rfl⟩ | ⟨_, hkind, _⟩ | ⟨_, hkind, _⟩
  · exact absurd hkind (by decide)
  · exact ⟨rfl, rfl⟩
  · exact absurd hkind (by decide)
  · exact absurd hkind (by decide)

/-- A step over an opening parenthesis opens a group. -/
theorem of_step?_opening (h : state.step? .opening = some next) :
    state.mode = .operand ∧ next = ⟨.operand, state.groups + 1⟩ := by
  rcases step?_cases h with ⟨groups, _, _, rfl, rfl⟩ | ⟨_, hkind, _⟩ | ⟨_, hkind, _⟩ | ⟨_, hkind, _⟩
  · exact ⟨rfl, rfl⟩
  · exact absurd hkind (by decide)
  · exact absurd hkind (by decide)
  · exact absurd hkind (by decide)

/-- A step over a closing parenthesis closes a group. -/
theorem of_step?_closing (h : state.step? .closing = some next) :
    next.mode = .operator ∧ state = ⟨.operator, next.groups + 1⟩ := by
  rcases step?_cases h with ⟨_, _, hkind, _⟩ | ⟨_, hkind, _⟩ | ⟨_, hkind, _⟩ | ⟨groups, _, rfl, rfl⟩
  · exact absurd hkind (by decide)
  · exact absurd hkind (by decide)
  · exact absurd hkind (by decide)
  · exact ⟨rfl, rfl⟩

/-- A step over an operator looks for the next operand. -/
theorem of_step?_isOperator (hkind : kind.isOperator = true) (h : state.step? kind = some next) :
    next = ⟨.operand, state.groups⟩ := by
  rcases step?_cases h with ⟨_, _, rfl, _⟩ | ⟨_, rfl, _⟩ | ⟨groups, _, rfl, rfl⟩ | ⟨_, rfl, _⟩
  · exact absurd hkind (by decide)
  · exact absurd hkind (by decide)
  · rfl
  · exact absurd hkind (by decide)

/-- An operand is not found at a token that is no number and opens no group for which there is
    room. -/
theorem step?_operand_eq_none_iff :
    step? ⟨.operand, groups⟩ kind = none ↔ kind ≠ .number ∧ (kind = .opening → 128 ≤ groups) := by
  by_cases hopening : kind = .opening
  · subst hopening
    simp [step?]
  · simp [step?, hopening]

/-- Behind an operand a sweep does not go on at a token that is no operator and closes no open
    group. -/
theorem step?_operator_eq_none_iff :
    step? ⟨.operator, groups⟩ kind = none ↔
      kind.isOperator = false ∧ (kind = .closing → groups = 0) := by
  by_cases hoperator : kind.isOperator = true
  · simp [hoperator]
  · simp [step?, hoperator]

end

end State

end Sweep

/-!
### Silent steps of a sweep
-/

open Sweep (State)

/-- A sweep makes the step that needs no report, if there is one. -/
theorem sweep_of_step? {state next : State} {token : Token}
    (h : state.step? token.kind = some next) (stop : Int) (behind : List Token) :
    sweep stop state.mode state.groups (token :: behind) =
      (sweep stop next.mode next.groups behind).after [token] [] := by
  rcases State.step?_cases h with ⟨groups, hroom, hkind, rfl, rfl⟩ | ⟨groups, hkind, rfl, rfl⟩ |
    ⟨groups, hkind, rfl, rfl⟩ | ⟨groups, hkind, rfl, rfl⟩
  · exact sweep_opening hkind hroom
  · exact sweep_number hkind
  · exact sweep_isOperator hkind
  · exact sweep_closing hkind

/-- A sweep hands out all tokens over which a run goes, and reports nothing. -/
theorem sweep_of_run? {state next : State} {tokens : List Token}
    (h : state.run? (tokens.map Token.kind) = some next) (stop : Int) (behind : List Token) :
    sweep stop state.mode state.groups (tokens ++ behind) =
      (sweep stop next.mode next.groups behind).after tokens [] := by
  induction tokens generalizing state with
  | nil =>
      obtain rfl : state = next := by simpa using h
      rfl
  | cons token tokens ih =>
      rw [List.map_cons, State.run?_cons, Option.bind_eq_some_iff] at h
      obtain ⟨between, hstep, hrun⟩ := h
      rw [List.cons_append, sweep_of_step? hstep, ih hrun, Sweep.Output.after_after]
      rfl

namespace Sweep

theorem State.kind_ne_finish_of_run? {state next : State} {kinds : List Kind}
    (h : state.run? kinds = some next) : .finish ∉ kinds := by
  intro hmem
  obtain ⟨before, behind, rfl⟩ := List.append_of_mem hmem
  rw [run?_append, Option.bind_eq_some_iff] at h
  obtain ⟨between, -, hrun⟩ := h
  rw [run?_cons, step?_finish] at hrun
  exact absurd hrun (by simp)

/-!
### Runs over leaves
-/

/-- A run goes over the leaves of a tree of the grammar for whose groups there is room, and comes from
    looking for an operand to having found one, with as many groups open as before. -/
theorem State.run?_leaves {e : Expr} (h : e.Grammatical) {groups : Nat}
    (hroom : groups + e.nesting ≤ 128) :
    run? ⟨.operand, groups⟩ (e.leaves.map Token.kind) = some ⟨.operator, groups⟩ := by
  induction e generalizing groups with
  | numeral token =>
      have hkind : token.kind = .number := h
      simp [Expr.leaves, hkind]
  | group opening inner closing ih =>
      obtain ⟨hopening, hinner, hclosing⟩ := h
      rw [Expr.nesting] at hroom
      have hcontent := ih hinner (show groups + 1 + inner.nesting ≤ 128 by omega)
      simp [Expr.leaves, hopening, hclosing, step?_opening (show groups < 128 by omega), hcontent]
  | binary left operator right ihl ihr =>
      have hnesting : left.nesting ≤ (Expr.binary left operator right).nesting ∧
          right.nesting ≤ (Expr.binary left operator right).nesting :=
        ⟨Nat.le_max_left _ _, Nat.le_max_right _ _⟩
      have hleft := ihl h.1 (show groups + left.nesting ≤ 128 by omega)
      have hright := ihr h.2.1 (show groups + right.nesting ≤ 128 by omega)
      simp [Expr.leaves, hleft, hright, step?_isOperator (Expr.isOperator_of_grammatical h)]

/-- Wherever a run goes over the leaves of a tree of the grammar, it was looking for an operand, and it
    opens and closes the groups of the tree and no others. -/
theorem State.eq_of_run?_leaves {e : Expr} (h : e.Grammatical) {state next : State}
    (hrun : state.run? (e.leaves.map Token.kind) = some next) :
    state.mode = .operand ∧ next = ⟨.operator, state.groups⟩ := by
  induction e generalizing state next with
  | numeral token =>
      have hkind : token.kind = .number := h
      have hstep : state.step? .number = some next := by simpa [Expr.leaves, hkind] using hrun
      exact of_step?_number hstep
  | group opening inner closing ih =>
      obtain ⟨hopening, hinner, hclosing⟩ := h
      have hrun : ∃ between, state.step? .opening = some between ∧
          ∃ within, between.run? (inner.leaves.map Token.kind) = some within ∧
            within.step? .closing = some next := by
        simpa [Expr.leaves, hopening, hclosing, Option.bind_eq_some_iff] using hrun
      obtain ⟨between, hopen, within, hcontent, hclose⟩ := hrun
      obtain ⟨hmode, rfl⟩ := of_step?_opening hopen
      obtain ⟨-, rfl⟩ := ih hinner hcontent
      obtain ⟨hlast, hgroups⟩ := of_step?_closing hclose
      obtain ⟨mode, groups⟩ := next
      simp_all
  | binary left operator right ihl ihr =>
      have hrun : ∃ between, state.run? (left.leaves.map Token.kind) = some between ∧
          ∃ within, between.step? operator.kind = some within ∧
            within.run? (right.leaves.map Token.kind) = some next := by
        simpa [Expr.leaves, Option.bind_eq_some_iff] using hrun
      obtain ⟨between, hleft, within, hstep, hright⟩ := hrun
      obtain ⟨hmode, rfl⟩ := ihl h.1 hleft
      obtain rfl := of_step?_isOperator (Expr.isOperator_of_grammatical h) hstep
      exact ⟨hmode, (ihr h.2.1 hright).2⟩

/-- The runs from the start of a line to where it may end go over the leaves of the trees of the
    grammar whose groups are nested at most 128 deep. -/
theorem run?_eq_final_iff (tokens : List Token) :
    State.start.run? (tokens.map Token.kind) = some .final ↔
      ∃ e : Expr, e.Grammatical ∧ e.nesting ≤ 128 ∧ e.leaves = tokens := by
  constructor
  · intro h
    have hfinish : ∀ token ∈ tokens, token.kind ≠ .finish := by
      intro token hmem hkind
      exact State.kind_ne_finish_of_run? h (List.mem_map.mpr ⟨token, hmem, hkind⟩)
    -- Read as the tokens of a line, they are swept over without a report.
    have hsweep : sweep 0 .operand 0 tokens = ⟨tokens, Token.finish 0, []⟩ := by
      have hrun := sweep_of_run? h 0 []
      have hend : sweep 0 .operator 0 [] = halt 0 (Token.finish 0) :=
        sweep_halt (clear_nil _) fun _ => rfl
      rw [List.append_nil] at hrun
      rw [State.start, State.final, hend] at hrun
      simpa [halt, Output.after, Token.finish] using hrun
    have hreports : (Tree.ofLexemes ⟨tokens, 0, []⟩).reports = [] := by
      rw [(Tree.ofLexemes_eq_sweep ⟨tokens, 0, []⟩).2.2, hsweep]
      rfl
    obtain ⟨-, e, hgrammatical, hnesting, hleaves⟩ := Tree.exists_leaves_of_reports hfinish hreports
    exact ⟨e, hgrammatical, hnesting, hleaves.symm⟩
  · rintro ⟨e, hgrammatical, hnesting, rfl⟩
    exact State.run?_leaves hgrammatical (by simpa using hnesting)

end Sweep

end Reckoner
