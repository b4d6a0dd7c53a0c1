/-
Module: Reckoner.Proofs.Tree.Resume
Layer: Proofs
Purpose: What a sweep depends on. A sweep that reports a group as nested too deep has come to its
  parenthesis while 128 groups were open, and how it came there depends on the tokens in front of the
  parenthesis only. Behind it the sweep goes on as it would in any other place: moving the tokens
  moves what is handed out.
Main exports: Report.Follows, sweep_relocated, sweep_moved, exists_position_of_tooDeep, Sweep.Reaches,
  reaches_of_tooDeep, sweep_openings, tooDeep_mem_sweep, sweep_balanced
-/
import Reckoner.Proofs.Token.Splice
import Reckoner.Proofs.Tree.Sweep

namespace Reckoner

open Grammar

/-!
### Moving tokens

Where tokens stand is of no account for what a sweep does with them: their places are only copied, into
empty tokens and into reports. So a change of all places, whatever it is, goes through the sweep.
-/

/-- A change of reports that follows a change of places. -/
structure Report.Follows (place : Int → Int) (change : Report → Report) : Prop where
  tooDeep : ∀ position limit, change (.tooDeep position limit) = .tooDeep (place position) limit
  unexpected : ∀ actual expected, change (.unexpected actual expected) = .unexpected actual expected

/-- The same report about a place that is `shift` characters further on. -/
def Report.moved (shift : Int) : Report → Report
  | .tooDeep position limit => .tooDeep (position + shift) limit
  | report => report

theorem Report.follows_moved (shift : Int) : Follows (· + shift) (moved shift) :=
  ⟨fun _ _ => rfl, fun _ _ => rfl⟩

/-- The output with other tokens and reports in the place of its own. -/
def Sweep.Output.map (token : Token → Token) (report : Report → Report) (output : Output) : Output :=
  ⟨output.leaves.map token, token output.finish, output.reports.map report⟩

/-- The same output for tokens that are `shift` characters further on. -/
def Sweep.Output.moved (shift : Int) (output : Sweep.Output) : Sweep.Output :=
  ⟨output.leaves.map (Token.moved shift), output.finish.moved shift,
    output.reports.map (Report.moved shift)⟩

/-- Moving a report twice is moving it by both distances. -/
theorem Report.moved_moved (shift further : Int) (report : Report) :
    (report.moved shift).moved further = report.moved (shift + further) := by
  cases report with
  | tooDeep position limit => simp only [moved, Int.add_assoc]
  | _ => rfl

/-- Moving an output twice is moving it by both distances. -/
theorem Sweep.Output.moved_moved (shift further : Int) (output : Output) :
    (output.moved shift).moved further = output.moved (shift + further) := by
  simp [moved, Function.comp_def, Token.moved_moved, Report.moved_moved]

@[simp] theorem Sweep.Output.map_after (token : Token → Token) (report : Report → Report)
    (leaves : List Token) (reports : List Report) (output : Output) :
    (output.after leaves reports).map token report =
      (output.map token report).after (leaves.map token) (reports.map report) := by
  simp [after, map]

theorem openGroups_map_relocated (place : Int → Int) (tokens : List Token) :
    openGroups (tokens.map (Token.relocated place)) = openGroups tokens := by
  simp only [openGroups, List.countP_map]
  rfl

/-- Balanced tokens stay balanced wherever they are. -/
theorem Balanced.map_moved {tokens : List Token} (h : Balanced tokens) (shift : Int) :
    Balanced (tokens.map (Token.moved shift)) := by
  rw [Token.moved_eq_relocated]
  constructor
  · intro front hfront
    obtain ⟨others, hothers, rfl⟩ := List.prefix_map_iff.mp hfront
    rw [openGroups_map_relocated]
    exact h.nonneg others hothers
  · rw [openGroups_map_relocated]
    exact h.closed

theorem matching?_map_relocated (place : Int → Int) (tokens : List Token) :
    matching? (tokens.map (Token.relocated place)) = matching? tokens := by
  simp only [matching?, List.length_map, ← List.map_take, openGroups_map_relocated]

theorem upcoming_map_relocated (place : Int → Int) (stop : Int) (tokens : List Token) :
    upcoming (place stop) (tokens.map (Token.relocated place)) =
      (upcoming stop tokens).relocated place := by
  cases tokens with
  | nil => rfl
  | cons token behind => rfl

theorem kind_upcoming_map_relocated (place : Int → Int) (stop : Int) (tokens : List Token) :
    (upcoming (place stop) (tokens.map (Token.relocated place))).kind =
      (upcoming stop tokens).kind := by
  rw [upcoming_map_relocated, Token.kind_relocated]

section

variable {place : Int → Int} {change : Report → Report} (hchange : Report.Follows place change)
include hchange

theorem Sweep.halt_relocated (groups : Nat) (token : Token) :
    halt groups (token.relocated place) = (halt groups token).map (Token.relocated place) change := by
  unfold halt
  rw [Token.kind_relocated]
  split
  · simp [Output.map, Token.missing, Token.relocated, Token.plain, hchange.unexpected]
  · simp [Output.map, Token.missing, Token.relocated, Token.plain, hchange.unexpected]

/-- Changing the places of the tokens of a line and of its end changes the places in what the sweep
    hands out. -/
theorem sweep_relocated (stop : Int) (mode : Sweep.Mode) (groups : Nat) (tokens : List Token) :
    sweep (place stop) mode groups (tokens.map (Token.relocated place)) =
      (sweep stop mode groups tokens).map (Token.relocated place) change := by
  induction mode, groups, tokens using sweep_induction stop with
  | opening groups tokens hopening hgroups ih =>
      have hkind := (kind_upcoming_map_relocated place stop tokens).trans hopening
      rw [sweep_opening hopening hgroups, Sweep.Output.map_after, ← ih, List.map_tail,
        sweep_opening hkind hgroups, upcoming_map_relocated]
      rfl
  | skipped groups tokens i hopening hgroups hmatching ih =>
      have hkind := (kind_upcoming_map_relocated place stop tokens).trans hopening
      obtain ⟨closing, hclosing, -, -⟩ := exists_closing_of_matching? hmatching
      have hplaced : (tokens.map (Token.relocated place)).tail[i]? =
          some (closing.relocated place) := by
        rw [← List.map_tail, List.getElem?_map, hclosing, Option.map_some]
      have hsame : matching? (tokens.map (Token.relocated place)).tail = some i := by
        rw [← List.map_tail, matching?_map_relocated, hmatching]
      rw [sweep_skipped hopening hgroups hmatching hclosing, Sweep.Output.map_after, ← ih,
        sweep_skipped hkind hgroups hsame hplaced, List.map_drop, ← List.map_tail,
        upcoming_map_relocated, upcoming_map_relocated, List.map_singleton, hchange.tooDeep]
      rfl
  | unclosed groups tokens hopening hgroups hmatching ih =>
      have hkind := (kind_upcoming_map_relocated place stop tokens).trans hopening
      have hsame : matching? (tokens.map (Token.relocated place)).tail = none := by
        rw [← List.map_tail, matching?_map_relocated, hmatching]
      rw [sweep_unclosed hopening hgroups hmatching, Sweep.Output.map_after, ← ih,
        sweep_unclosed hkind hgroups hsame, ← List.map_tail, upcoming_map_relocated,
        upcoming_map_relocated]
      simp only [List.map_cons, List.map_nil, hchange.tooDeep, hchange.unexpected]
      rfl
  | number groups tokens hnumber ih =>
      have hkind := (kind_upcoming_map_relocated place stop tokens).trans hnumber
      rw [sweep_number hnumber, Sweep.Output.map_after, ← ih, List.map_tail, sweep_number hkind,
        upcoming_map_relocated]
      rfl
  | missing groups tokens hopening hnumber ih =>
      have hkind := kind_upcoming_map_relocated place stop tokens
      rw [sweep_missing hopening hnumber, Sweep.Output.map_after, ← ih,
        sweep_missing (hkind ▸ hopening) (hkind ▸ hnumber), upcoming_map_relocated,
        List.map_singleton, List.map_singleton, hchange.unexpected]
      rfl
  | operator groups tokens hoperator ih =>
      have hkind := kind_upcoming_map_relocated place stop tokens
      rw [sweep_isOperator hoperator, Sweep.Output.map_after, ← ih, List.map_tail,
        sweep_isOperator (hkind ▸ hoperator), upcoming_map_relocated]
      rfl
  | closing groups tokens hclosing ih =>
      have hkind := (kind_upcoming_map_relocated place stop tokens).trans hclosing
      rw [sweep_closing hclosing, Sweep.Output.map_after, ← ih, List.map_tail,
        sweep_closing hkind, upcoming_map_relocated]
      rfl
  | halt groups tokens hoperator hclosing =>
      have hkind := kind_upcoming_map_relocated place stop tokens
      have hclear : Clear Kind.isOperator (tokens.map (Token.relocated place)) := by
        rw [clear_iff_upcoming (place stop) rfl, hkind]
        exact (clear_iff_upcoming stop rfl tokens).mp hoperator
      rw [sweep_halt hoperator hclosing, sweep_halt hclear (hkind ▸ hclosing),
        upcoming_map_relocated, Sweep.halt_relocated hchange]

end

/-- Moving the tokens of a line and its end moves what the sweep hands out. -/
theorem sweep_moved (shift stop : Int) (mode : Sweep.Mode) (groups : Nat) (tokens : List Token) :
    sweep (stop + shift) mode groups (tokens.map (Token.moved shift)) =
      (sweep stop mode groups tokens).moved shift :=
  sweep_relocated (Report.follows_moved shift) stop mode groups tokens

/-!
### Which groups are reported
-/

/-- A token of some kind but the end is one of those that are left. -/
theorem upcoming_mem_of_kind {stop : Int} {tokens : List Token}
    (h : (upcoming stop tokens).kind ≠ .finish) : upcoming stop tokens ∈ tokens := by
  cases tokens with
  | nil => exact absurd rfl h
  | cons token behind => exact List.mem_cons_self

theorem Sweep.tooDeep_not_mem_halt (position limit : Int) (groups : Nat) (token : Token) :
    .tooDeep position limit ∉ (halt groups token).reports := by
  unfold halt
  split
  · simp [List.mem_replicate]
  · simp [List.mem_replicate]

/-- A group that is reported as nested too deep starts at one of the tokens. -/
theorem exists_position_of_tooDeep {stop position limit : Int} {mode : Sweep.Mode} {groups : Nat}
    {tokens : List Token} (h : .tooDeep position limit ∈ (sweep stop mode groups tokens).reports) :
    ∃ token ∈ tokens, token.position = position := by
  induction mode, groups, tokens using sweep_induction stop with
  | opening groups tokens hopening hgroups ih =>
      rw [sweep_opening hopening hgroups] at h
      obtain ⟨token, hmem, hposition⟩ := ih (by simpa [Sweep.Output.after] using h)
      exact ⟨token, List.mem_of_mem_tail hmem, hposition⟩
  | skipped groups tokens i hopening hgroups hmatching ih =>
      obtain ⟨closing, hclosing, -, -⟩ := exists_closing_of_matching? hmatching
      rw [sweep_skipped hopening hgroups hmatching hclosing] at h
      rcases List.mem_append.mp h with hfirst | hothers
      · have hkind : (upcoming stop tokens).kind ≠ .finish := by rw [hopening]; decide
        exact ⟨_, upcoming_mem_of_kind hkind, by simp_all⟩
      · obtain ⟨token, hmem, hposition⟩ := ih hothers
        exact ⟨token, List.mem_of_mem_tail (List.mem_of_mem_drop hmem), hposition⟩
  | unclosed groups tokens hopening hgroups hmatching ih =>
      rw [sweep_unclosed hopening hgroups hmatching] at h
      rcases List.mem_append.mp h with hfirst | hothers
      · have hkind : (upcoming stop tokens).kind ≠ .finish := by rw [hopening]; decide
        exact ⟨_, upcoming_mem_of_kind hkind, by simp_all⟩
      · obtain ⟨token, hmem, -⟩ := ih hothers
        exact absurd hmem (by simp)
  | number groups tokens hnumber ih =>
      rw [sweep_number hnumber] at h
      obtain ⟨token, hmem, hposition⟩ := ih (by simpa [Sweep.Output.after] using h)
      exact ⟨token, List.mem_of_mem_tail hmem, hposition⟩
  | missing groups tokens hopening hnumber ih =>
      rw [sweep_missing hopening hnumber] at h
      exact ih (by simpa [Sweep.Output.after] using h)
  | operator groups tokens hoperator ih =>
      rw [sweep_isOperator hoperator] at h
      obtain ⟨token, hmem, hposition⟩ := ih (by simpa [Sweep.Output.after] using h)
      exact ⟨token, List.mem_of_mem_tail hmem, hposition⟩
  | closing groups tokens hclosing ih =>
      rw [sweep_closing hclosing] at h
      obtain ⟨token, hmem, hposition⟩ := ih (by simpa [Sweep.Output.after] using h)
      exact ⟨token, List.mem_of_mem_tail hmem, hposition⟩
  | halt groups tokens hoperator hclosing =>
      rw [sweep_halt hoperator hclosing] at h
      exact absurd h (Sweep.tooDeep_not_mem_halt _ _ _ _)

/-!
### Coming to a group that is nested too deep
-/

/-- A sweep over some tokens comes to the parenthesis behind them while 128 groups are open. What it
    has handed out by then does not depend on what is behind the parenthesis. -/
def Sweep.Reaches (opening : Token) (mode : Mode) (groups : Nat) (before : List Token) : Prop :=
  ∃ leaves reports, ∀ stop behind,
    sweep stop mode groups (before ++ opening :: behind) =
      (sweep stop .operand 128 (opening :: behind)).after leaves reports

/-- A sweep comes to a parenthesis if it does so after a step that depends on the tokens in front of
    the parenthesis only. -/
theorem Sweep.Reaches.of_step {opening : Token} {mode next : Mode} {groups others : Nat}
    {before later leaves : List Token} {reports : List Report}
    (hstep : ∀ stop behind, sweep stop mode groups (before ++ opening :: behind) =
      (sweep stop next others (later ++ opening :: behind)).after leaves reports)
    (h : Reaches opening next others later) : Reaches opening mode groups before := by
  obtain ⟨further, more, hreaches⟩ := h
  refine ⟨leaves ++ further, reports ++ more, ?_⟩
  intro stop behind
  rw [hstep, hreaches, Output.after_after]

/-- Leaving out a group that ends in front of a parenthesis depends on the tokens in front of the
    parenthesis only. -/
theorem Sweep.Reaches.of_skipped {opening token : Token} {groups i : Nat} {before : List Token}
    (hkind : token.kind = .opening) (hfull : 128 ≤ groups) (hmatching : matching? before = some i)
    (h : Reaches opening .operator groups (before.drop (i + 1))) :
    Reaches opening .operand groups (token :: before) := by
  obtain ⟨closing, hclosing, -, -⟩ := exists_closing_of_matching? hmatching
  have hi : i < before.length := (matching?_eq_some_iff.mp hmatching).1
  cases before with
  | nil => exact absurd hi (Nat.not_lt_zero i)
  | cons first before =>
      have hstep : ∀ stop behind,
          sweep stop .operand groups (token :: first :: before ++ opening :: behind) =
            (sweep stop .operator groups
              ((first :: before).drop (i + 1) ++ opening :: behind)).after
              [token, .missing .number first.position, closing] [.tooDeep token.position 128] := by
        intro stop behind
        rw [← List.drop_append_of_le_length hi]
        exact sweep_skipped hkind hfull (matching?_append_of_some hmatching _)
          ((List.getElem?_append_left hi).trans hclosing)
      exact .of_step hstep h

/-- A sweep comes to every group that it reports as nested too deep, provided that the group starts
    at a place of its own. -/
theorem reaches_of_tooDeep {stop : Int} {mode : Sweep.Mode} {groups : Nat} {opening : Token}
    {before behind : List Token} (hopening : opening.kind = .opening) (hgroups : groups ≤ 128)
    (hbefore : ∀ token ∈ before, token.position ≠ opening.position)
    (hbehind : ∀ token ∈ behind, token.position ≠ opening.position)
    (h : .tooDeep opening.position 128 ∈
      (sweep stop mode groups (before ++ opening :: behind)).reports) :
    Sweep.Reaches opening mode groups before := by
  have hnone : ∀ {mode groups tokens}, tokens ⊆ behind →
      .tooDeep opening.position 128 ∉ (sweep stop mode groups tokens).reports := by
    intro mode groups tokens hsubset hmem
    obtain ⟨token, htoken, hposition⟩ := exists_position_of_tooDeep hmem
    exact hbehind token (hsubset htoken) hposition
  generalize htokens : before ++ opening :: behind = tokens at h
  -- The next token is the parenthesis itself, or else the first of those in front of it.
  induction mode, groups, tokens using sweep_induction stop generalizing before with
  | opening groups tokens hkind hroom ih =>
      subst htokens
      rw [sweep_opening hkind hroom] at h
      cases before with
      | nil => exact absurd h (hnone (List.Subset.refl behind))
      | cons token before =>
          have hstep : ∀ stop behind,
              sweep stop .operand groups (token :: before ++ opening :: behind) =
                (sweep stop .operand (groups + 1) (before ++ opening :: behind)).after [token] [] :=
            fun stop behind => sweep_opening hkind hroom
          exact .of_step hstep (ih hroom (fun other hmem => hbefore other (.tail _ hmem)) rfl h)
  | skipped groups tokens i hkind hfull hmatching ih =>
      subst htokens
      cases before with
      | nil =>
          obtain rfl : groups = 128 := Nat.le_antisymm hgroups hfull
          exact ⟨[], [], fun stop behind => rfl⟩
      | cons token before =>
          obtain ⟨closing, hclosing, -, -⟩ := exists_closing_of_matching? hmatching
          rw [sweep_skipped hkind hfull hmatching hclosing] at h
          have hother := hbefore token List.mem_cons_self
          have hbehind : .tooDeep opening.position 128 ∈ (sweep stop .operator groups
              ((before ++ opening :: behind).drop (i + 1))).reports := by
            refine (List.mem_cons.mp h).resolve_left ?_
            intro hsame
            injection hsame with hposition
            exact hother hposition.symm
          cases hinside : matching? before with
          | none =>
              -- The group that is left out holds the parenthesis.
              obtain ⟨k, rfl⟩ := Nat.exists_eq_add_of_le
                (length_le_of_matching?_append hinside hmatching)
              rw [Nat.add_assoc, List.drop_length_add_append, List.drop_succ_cons] at hbehind
              exact absurd hbehind (hnone (List.drop_subset k behind))
          | some j =>
              have hsame : matching? (before ++ opening :: behind) = some j :=
                matching?_append_of_some hinside _
              obtain rfl : i = j := Option.some.inj (hmatching.symm.trans hsame)
              have hi : i < before.length := (matching?_eq_some_iff.mp hinside).1
              refine .of_skipped hkind hfull hinside (ih hgroups ?_ ?_ hbehind)
              · intro other hmem
                exact hbefore other (.tail _ (List.mem_of_mem_drop hmem))
              · exact (List.drop_append_of_le_length hi).symm
  | unclosed groups tokens hkind hfull hmatching ih =>
      subst htokens
      cases before with
      | nil =>
          obtain rfl : groups = 128 := Nat.le_antisymm hgroups hfull
          exact ⟨[], [], fun stop behind => rfl⟩
      | cons token before =>
          have hother := hbefore token List.mem_cons_self
          rw [sweep_unclosed hkind hfull hmatching] at h
          rcases List.mem_append.mp h with hfirst | hothers
          · have hposition : opening.position = token.position := by simpa [upcoming] using hfirst
            exact absurd hposition.symm hother
          · exact absurd hothers (hnone (List.nil_subset behind))
  | number groups tokens hnumber ih =>
      subst htokens
      rw [sweep_number hnumber] at h
      cases before with
      | nil => exact absurd (hopening.symm.trans hnumber) (by decide)
      | cons token before =>
          have hstep : ∀ stop behind,
              sweep stop .operand groups (token :: before ++ opening :: behind) =
                (sweep stop .operator groups (before ++ opening :: behind)).after [token] [] :=
            fun stop behind => sweep_number hnumber
          exact .of_step hstep (ih hgroups (fun other hmem => hbefore other (.tail _ hmem)) rfl h)
  | missing groups tokens hnot hnumber ih =>
      subst htokens
      rw [sweep_missing hnot hnumber] at h
      cases before with
      | nil => exact absurd hopening hnot
      | cons token before =>
          have hstep : ∀ stop behind,
              sweep stop .operand groups (token :: before ++ opening :: behind) =
                (sweep stop .operator groups (token :: before ++ opening :: behind)).after
                  [.missing .number token.position]
                  [.unexpected token.kind.name Kind.number.name] :=
            fun stop behind => sweep_missing hnot hnumber
          have h := (List.mem_cons.mp h).resolve_left (by simp)
          exact .of_step hstep (ih hgroups hbefore rfl h)
  | operator groups tokens hoperator ih =>
      subst htokens
      rw [sweep_isOperator hoperator] at h
      cases before with
      | nil => exact absurd (hopening ▸ hoperator) (by decide)
      | cons token before =>
          have hstep : ∀ stop behind,
              sweep stop .operator groups (token :: before ++ opening :: behind) =
                (sweep stop .operand groups (before ++ opening :: behind)).after [token] [] :=
            fun stop behind => sweep_isOperator hoperator
          exact .of_step hstep (ih hgroups (fun other hmem => hbefore other (.tail _ hmem)) rfl h)
  | closing groups tokens hclosing ih =>
      subst htokens
      rw [sweep_closing hclosing] at h
      cases before with
      | nil => exact absurd (hopening.symm.trans hclosing) (by decide)
      | cons token before =>
          have hstep : ∀ stop behind,
              sweep stop .operator (groups + 1) (token :: before ++ opening :: behind) =
                (sweep stop .operator groups (before ++ opening :: behind)).after [token] [] :=
            fun stop behind => sweep_closing hclosing
          exact .of_step hstep
            (ih (Nat.le_of_succ_le hgroups) (fun other hmem => hbefore other (.tail _ hmem)) rfl h)
  | halt groups tokens hoperator hclosing =>
      rw [sweep_halt hoperator hclosing] at h
      exact absurd h (Sweep.tooDeep_not_mem_halt _ _ _ _)

/-- Groups that start one right after the other are all opened if there is room for them. -/
theorem sweep_openings {groups : Nat} {openings : List Token}
    (hopenings : ∀ token ∈ openings, token.kind = .opening)
    (hroom : groups + openings.length ≤ 128) (stop : Int) (rest : List Token) :
    sweep stop .operand groups (openings ++ rest) =
      (sweep stop .operand (groups + openings.length) rest).after openings [] := by
  induction openings generalizing groups with
  | nil => rfl
  | cons opening openings ih =>
      rw [List.length_cons] at hroom
      have hstep : sweep stop .operand groups (opening :: openings ++ rest) =
          (sweep stop .operand (groups + 1) (openings ++ rest)).after [opening] [] :=
        sweep_opening (hopenings opening List.mem_cons_self) (by omega)
      have hrest := ih (fun token hmem => hopenings token (.tail _ hmem))
        (show groups + 1 + openings.length ≤ 128 by omega)
      rw [hstep, hrest, List.length_cons, Nat.add_assoc, Nat.add_comm 1]
      rfl

/-- A group that starts while 128 groups are open is reported. -/
theorem tooDeep_mem_sweep {opening : Token} (hopening : opening.kind = .opening) (stop : Int)
    (behind : List Token) :
    .tooDeep opening.position 128 ∈ (sweep stop .operand 128 (opening :: behind)).reports := by
  rw [sweep_skipGroup hopening (Nat.le_refl 128)]
  exact List.mem_append_left _ List.mem_cons_self

/-- A group that is nested too deep and whose content is balanced is left out as a whole. -/
theorem sweep_balanced {opening closing : Token} {inner : List Token}
    (hopening : opening.kind = .opening) (hclosing : closing.kind = .closing)
    (hinner : Balanced inner) (stop : Int) (rest : List Token) :
    ∃ hole, sweep stop .operand 128 (opening :: (inner ++ closing :: rest)) =
      (sweep stop .operator 128 rest).after [opening, .missing .number hole, closing]
        [.tooDeep opening.position 128] := by
  have hget : (inner ++ closing :: rest)[inner.length]? = some closing := by simp
  have hdrop : (inner ++ closing :: rest).drop (inner.length + 1) = rest := by
    rw [List.drop_length_add_append, List.drop_succ_cons, List.drop_zero]
  have hskip : sweep stop .operand 128 (opening :: (inner ++ closing :: rest)) = _ :=
    sweep_skipped hopening (Nat.le_refl 128) (matching?_of_balanced hinner hclosing rest) hget
  rw [List.tail_cons, hdrop] at hskip
  exact ⟨_, hskip⟩

end Reckoner
