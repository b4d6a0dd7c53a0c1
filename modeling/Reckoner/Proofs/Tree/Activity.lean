/-
Module: Reckoner.Proofs.Tree.Activity
Layer: Proofs
Purpose: The descent with its activations in sight. A routine that calls another one waits on a stack
  until the call comes back, and every loop comes back to its head, so one step does one thing: it
  calls, it goes on, or it returns. From every call the steps come back to where it was made, with
  what the recursive reading gives. A waiting primary is in a group that has been counted or is about
  to skip one, so the counter of groups tells how many primaries are nested in one another, and the
  limit on groups bounds them, whatever the tokens are.
Main exports: Activity, Activity.step, Activity.Leads, Activity.returns_call, Activity.Leads.returns,
  Activity.effort_lt, Activity.Iterates, Activity.left_lt_of_loop, Activity.step_cases,
  Activity.Nests, Activity.nests_of_leads, Activity.Nests.primaries_le
-/
import Reckoner.Proofs.Tree.Descent
import Mathlib.Logic.Relation

namespace Reckoner

namespace Activity

/-- What can be called. -/
inductive Routine where
  /-- An expression is a term. -/
  | expression
  | phrase (rank : Rank)
  /-- Skipping a group past the limit. -/
  | skipping
deriving DecidableEq, Repr

/-- An activation that waits for the one it has called. -/
inductive Frame where
  /-- An expression waits for its term. -/
  | expression
  /-- A row of operands waits for the first one. -/
  | first (rank : Rank)
  /-- A row with a tree so far waits for the operand behind an operator. -/
  | operand (rank : Rank) (e : Expr) (operator : Token)
  /-- A primary waits for the content of its group. -/
  | group (opening : Token)
  /-- A primary waits until the group before which it stands has been skipped. -/
  | skipped

/-- What the uppermost activation is about to do. -/
inductive Control where
  | enter (routine : Routine)
  /-- To go on with a row of operands whose tree so far is given, if an operator comes next. -/
  | row (rank : Rank) (e : Expr)
  /-- To go on with skipping, given the parenthesis that opens the group, the number that stands for
      its content, and the balance of parentheses. -/
  | skip (opening content : Token) (balance : Int)
  /-- To return with a tree. -/
  | leave (e : Expr)

/-- The loops: the rows of a level, and skipping. -/
inductive Loop where
  | row (rank : Rank)
  | skip
deriving DecidableEq, Repr

def Control.loop? : Control → Option Loop
  | row rank _ => some (.row rank)
  | skip .. => some .skip
  | _ => none

namespace Frame

/-- Whether a primary waits for the content of its group. -/
def isGroup : Frame → Bool
  | group _ => true
  | _ => false

/-- Whether a primary waits until its group has been skipped. -/
def isSkipped : Frame → Bool
  | skipped => true
  | _ => false

def isPrimary (frame : Frame) : Bool :=
  frame.isGroup || frame.isSkipped

end Frame

/-- Whether an activation that is about to do this can stand right above a primary that has its group
    skipped. -/
def Control.isOverSkipped : Control → Bool
  | enter .skipping | skip .. | leave _ => true
  | _ => false

/-- What a waiting activation has to do when a tree comes back to it. -/
def Frame.effort : Frame → Nat
  | expression | group _ | skipped => 1
  | first _ | operand .. => 2

/-- What waiting activations have to do together. -/
def Frame.efforts : List Frame → Nat
  | [] => 0
  | frame :: frames => frame.effort + efforts frames

/-- What is to be done on a control if no token is taken. -/
def Control.effort : Control → Nat
  | enter .expression => 12
  | enter (.phrase .term) => 10
  | enter (.phrase .factor) => 7
  | enter (.phrase .primary) => 4
  | enter .skipping => 2
  | row .. | skip .. => 1
  | leave _ => 0

end Activity

open Activity in
/-- The activations of a descent: what the uppermost one is about to do, and those that wait below
    it, the one that waits for it at the front. -/
structure Activity where
  control : Control
  frames : List Frame
  descent : Descent

namespace Descent

def call (d : Descent) : Activity.Routine → Expr × Descent
  | .expression => ((d.read .term).tree, (d.read .term).behind)
  | .phrase rank => ((d.read rank).tree, (d.read rank).behind)
  | .skipping => d.skipGroup

end Descent

namespace Activity

/-!
### Steps
-/

/-- The end of skipping: the closing parenthesis is taken, or it is missing. -/
def close (opening content : Token) (frames : List Frame) (d : Descent) : Activity :=
  let closing := d.expect .closing
  ⟨.leave (.group opening (.numeral content) closing.1), frames, closing.2⟩

/-- What the routine that has been called does first. -/
def enter (routine : Routine) (frames : List Frame) (d : Descent) : Activity :=
  match routine with
  | .expression => ⟨.enter (.phrase .term), .expression :: frames, d⟩
  | .phrase .term => ⟨.enter (.phrase .factor), .first .term :: frames, d⟩
  | .phrase .factor => ⟨.enter (.phrase .primary), .first .factor :: frames, d⟩
  | .phrase .primary =>
      if d.current.kind = .opening then
        if nestingLimit ≤ d.depth then ⟨.enter .skipping, .skipped :: frames, d⟩
        else
          ⟨.enter .expression, .group d.current :: frames,
            { d.step with depth := d.step.depth + 1 }⟩
      else
        let number := d.expect .number
        ⟨.leave (.numeral number.1), frames, number.2⟩
  | .skipping =>
      let inside := d.step.report (.tooDeep d.current.position nestingLimit)
      ⟨.skip d.current (Token.missing .number inside.current.position) 1, frames, inside⟩

/-- What the waiting activation does first when a tree comes back to it. -/
def resume (e : Expr) (frame : Frame) (frames : List Frame) (d : Descent) : Activity :=
  match frame with
  | .expression => ⟨.leave e, frames, d⟩
  | .first rank => ⟨.row rank e, frames, d⟩
  | .operand rank left operator => ⟨.row rank (.binary left operator e), frames, d⟩
  | .group opening =>
      let closing := { d with depth := d.depth - 1 }.expect .closing
      ⟨.leave (.group opening e closing.1), frames, closing.2⟩
  | .skipped => ⟨.leave e, frames, d⟩

/-- One step. There is none when a tree comes back and no activation waits for it. -/
def step (a : Activity) : Option Activity :=
  match a.control with
  | .enter routine => some (enter routine a.frames a.descent)
  | .row rank e =>
      if rank.joins a.descent.current.kind then
        some ⟨.enter (.phrase rank.operand), .operand rank e a.descent.current :: a.frames,
          a.descent.step⟩
      else some ⟨.leave e, a.frames, a.descent⟩
  | .skip opening content balance =>
      if a.descent.current.kind = .finish then some (close opening content a.frames a.descent)
      else if a.descent.current.kind = .opening then
        some ⟨.skip opening content (balance + 1), a.frames, a.descent.step⟩
      else if a.descent.current.kind = .closing then
        if balance - 1 = 0 then some (close opening content a.frames a.descent)
        else some ⟨.skip opening content (balance - 1), a.frames, a.descent.step⟩
      else some ⟨.skip opening content balance, a.frames, a.descent.step⟩
  | .leave e =>
      match a.frames with
      | [] => none
      | frame :: frames => some (resume e frame frames a.descent)

/-- After some steps the activity `a` has become `next`. -/
def Leads : Activity → Activity → Prop :=
  Relation.ReflTransGen fun a next => a.step = some next

theorem Leads.head {a between next : Activity} (h : a.step = some between)
    (hnext : between.Leads next) : a.Leads next :=
  Relation.ReflTransGen.head h hnext

theorem Leads.trans {a between next : Activity} (h : a.Leads between)
    (hnext : between.Leads next) : a.Leads next :=
  Relation.ReflTransGen.trans h hnext

theorem Leads.single {a next : Activity} (h : a.step = some next) : a.Leads next :=
  Relation.ReflTransGen.single h

/-!
### Where a call comes back
-/

/-- A call that comes back: from a routine on top of any waiting activations to the same waiting
    activations, with a tree and a descent. -/
def Returns (routine : Routine) (d : Descent) (e : Expr) (behind : Descent) : Prop :=
  ∀ frames, Leads ⟨.enter routine, frames, d⟩ ⟨.leave e, frames, behind⟩

/-- Skipping goes on until it is where `Descent.skip` goes, and closes the group there. -/
theorem leads_skip (opening content : Token) (balance : Int) (frames : List Frame) (d : Descent) :
    Leads ⟨.skip opening content balance, frames, d⟩
      (close opening content frames (d.skip balance)) := by
  fun_induction Descent.skip balance d with
  | case1 balance d hfinish => exact .single (by simp only [step, if_pos hfinish])
  | case2 balance d hfinish hopening ih =>
      exact .head (by simp only [step, if_neg hfinish, if_pos hopening]) ih
  | case3 balance d hfinish hopening hclosing hbalance =>
      exact .single (by
        simp only [step, if_neg hfinish, if_neg hopening, if_pos hclosing, if_pos hbalance])
  | case4 balance d hfinish hopening hclosing hbalance ih =>
      exact .head (by
        simp only [step, if_neg hfinish, if_neg hopening, if_pos hclosing, if_neg hbalance]) ih
  | case5 balance d hfinish hopening hclosing ih =>
      exact .head (by
        simp only [step, if_neg hfinish, if_neg hopening, if_neg hclosing]) ih

theorem returns_skipping (d : Descent) :
    Returns .skipping d d.skipGroup.1 d.skipGroup.2 := by
  intro frames
  exact .head rfl (leads_skip _ _ _ _ _)

/-- Whether reading a phrase comes back with what reading gives. -/
def ReadReturns (rank : Rank) (d : Descent) : Prop :=
  Returns (.phrase rank) d (d.read rank).tree (d.read rank).behind

/-- Whether going on with a row comes back with what extending gives. -/
def RowReturns (rank : Rank) (e : Expr) (d : Descent) : Prop :=
  ∀ frames, Leads ⟨.row rank e, frames, d⟩
    ⟨.leave (Descent.extend rank e d).tree, frames, (Descent.extend rank e d).behind⟩

theorem returns_expression {d : Descent} (h : ReadReturns .term d) :
    Returns .expression d (d.read .term).tree (d.read .term).behind := by
  intro frames
  exact .head rfl ((h (.expression :: frames)).trans (.single rfl))

/-- A primary comes back whose group is past the limit. -/
theorem readReturns_skipped {d : Descent} (hopening : d.current.kind = .opening)
    (hdepth : (nestingLimit : Int) ≤ d.depth) : ReadReturns .primary d := by
  intro frames
  have henter : step ⟨.enter (.phrase .primary), frames, d⟩ =
      some ⟨.enter .skipping, .skipped :: frames, d⟩ := by
    simp only [step, enter, if_pos hopening, if_pos hdepth]
  rw [Descent.read, dif_pos hopening, if_pos hdepth]
  exact .head henter ((returns_skipping d (.skipped :: frames)).trans (.single rfl))

/-- A primary comes back if the content of its group does. -/
theorem readReturns_group {d : Descent} (hopening : d.current.kind = .opening)
    (hdepth : ¬ (nestingLimit : Int) ≤ d.depth)
    (hinner : ReadReturns .term { d.step with depth := d.step.depth + 1 }) :
    ReadReturns .primary d := by
  intro frames
  have henter : step ⟨.enter (.phrase .primary), frames, d⟩ =
      some ⟨.enter .expression, .group d.current :: frames,
        { d.step with depth := d.step.depth + 1 }⟩ := by
    simp only [step, enter, if_pos hopening, if_neg hdepth]
  rw [Descent.read, dif_pos hopening, if_neg hdepth]
  exact .head henter
    ((returns_expression hinner (.group d.current :: frames)).trans (.single rfl))

theorem readReturns_number {d : Descent} (hopening : d.current.kind ≠ .opening) :
    ReadReturns .primary d := by
  intro frames
  rw [Descent.read, dif_neg hopening]
  exact .single (by simp only [step, enter, if_neg hopening])

/-- A row comes back if it does from behind the next operand, which has come back itself. -/
theorem rowReturns_join {rank : Rank} {e : Expr} {d : Descent}
    (hjoins : rank.joins d.current.kind = true)
    (hright : ReadReturns rank.operand d.step)
    (hothers : RowReturns rank (.binary e d.current (d.step.read rank.operand).tree)
      (d.step.read rank.operand).behind) : RowReturns rank e d := by
  intro frames
  have hcall : step ⟨.row rank e, frames, d⟩ =
      some ⟨.enter (.phrase rank.operand), .operand rank e d.current :: frames, d.step⟩ := by
    simp only [step, if_pos hjoins]
  rw [Descent.extend, dif_pos hjoins]
  exact .head hcall ((hright _).trans (.head rfl (hothers frames)))

/-- Every phrase comes back. There is one case for each way in which `read` and `extend` go on. -/
theorem readReturns (rank : Rank) (d : Descent) : ReadReturns rank d := by
  refine Descent.read.induct ReadReturns RowReturns ?_ ?_ ?_ ?_ ?_ ?_ ?_ rank d
  · -- a group past the limit
    intro d hopening hdepth
    exact readReturns_skipped hopening hdepth
  · -- a group for which there is room
    intro d hopening hdepth ih
    exact readReturns_group hopening hdepth ih
  · -- a number
    intro d hopening
    exact readReturns_number hopening
  · -- a factor
    intro d first ihfirst ihothers _ frames
    rw [Descent.read]
    exact .head rfl ((ihfirst _).trans (.head rfl (ihothers frames)))
  · -- a term
    intro d first ihfirst ihothers _ frames
    rw [Descent.read]
    exact .head rfl ((ihfirst _).trans (.head rfl (ihothers frames)))
  · -- an operator and a further operand
    intro rank e d hjoins right ihright ihothers _
    exact rowReturns_join hjoins ihright ihothers
  · -- no further operator
    intro rank e d hjoins frames
    rw [Descent.extend, dif_neg hjoins]
    exact .single (by simp only [step, if_neg hjoins])

/-- Every call comes back, whatever waits for it. -/
theorem returns_call (routine : Routine) (d : Descent) :
    Returns routine d (d.call routine).1 (d.call routine).2 := by
  cases routine with
  | expression => exact returns_expression (readReturns .term d)
  | phrase rank => exact readReturns rank d
  | skipping => exact returns_skipping d

/-- Steps leave no choice. -/
theorem step_rightUnique : Relator.RightUnique fun a next : Activity => a.step = some next := by
  intro a next other hnext hother
  rw [hnext] at hother
  exact Option.some.inj hother

/-- All that a call comes to leads on to where the call comes back. -/
theorem Leads.returns {routine : Routine} {d : Descent} {a : Activity}
    (h : Leads ⟨.enter routine, [], d⟩ a) :
    a.Leads ⟨.leave (d.call routine).1, [], (d.call routine).2⟩ := by
  rcases Relation.ReflTransGen.total_of_right_unique step_rightUnique h
    (returns_call routine d []) with hforth | hback
  · exact hforth
  · -- Nothing waits for the call, so it is over when it comes back.
    rcases Relation.ReflTransGen.cases_head hback with rfl | ⟨between, hstep, -⟩
    · exact .refl
    · cases hstep

/-!
### The effort that is left

A token that is taken makes up for all the calls that it may lead to before the next one is taken.
-/

variable {a next : Activity}

/-- An upper bound on the number of steps. -/
def effort (a : Activity) : Nat :=
  10 * a.descent.left + (a.control.effort + Frame.efforts a.frames)

theorem effort_close_le (opening content : Token) (frames : List Frame) (d : Descent) :
    (close opening content frames d).effort ≤ 10 * d.left + Frame.efforts frames := by
  have hleft := d.left_expect_le .closing
  simp only [close, effort, Control.effort]
  omega

/-- A routine that has been called is nearer to its end after its first step. -/
theorem effort_enter_lt (routine : Routine) (frames : List Frame) (d : Descent) :
    (enter routine frames d).effort < effort ⟨.enter routine, frames, d⟩ := by
  cases routine with
  | expression =>
      simp only [enter, effort, Control.effort, Frame.efforts, Frame.effort]
      omega
  | skipping =>
      have hleft := d.left_step_le
      have hreport : Descent.left (d.step.report (.tooDeep d.current.position nestingLimit)) =
          d.step.left := rfl
      simp only [enter, effort, Control.effort, hreport]
      omega
  | phrase rank =>
      cases rank with
      | term =>
          simp only [enter, effort, Control.effort, Frame.efforts, Frame.effort]
          omega
      | factor =>
          simp only [enter, effort, Control.effort, Frame.efforts, Frame.effort]
          omega
      | primary =>
          simp only [enter]
          split
          · next hopening =>
              split
              · simp only [effort, Control.effort, Frame.efforts, Frame.effort]
                omega
              · have hlt : d.step.left < d.left := Descent.left_step_lt (by rw [hopening]; decide)
                have hleft : Descent.left { d.step with depth := d.step.depth + 1 } =
                    d.step.left := rfl
                simp only [effort, Control.effort, Frame.efforts, Frame.effort,
                  hleft]
                omega
          · have hleft := d.left_expect_le .number
            simp only [effort, Control.effort]
            omega

/-- A waiting activation that goes on has less to do than when it waited. -/
theorem effort_resume_lt (e : Expr) (frame : Frame) (frames : List Frame) (d : Descent) :
    (resume e frame frames d).effort < effort ⟨.leave e, frame :: frames, d⟩ := by
  cases frame with
  | group opening =>
      have hleft := Descent.left_expect_le { d with depth := d.depth - 1 } .closing
      have hsame : Descent.left { d with depth := d.depth - 1 } = d.left := rfl
      simp only [resume, effort, Control.effort, Frame.efforts, Frame.effort]
      omega
  | _ =>
      simp only [resume, effort, Control.effort, Frame.efforts, Frame.effort]
      omega

/-- Every step leaves less to do. -/
theorem effort_lt (h : a.step = some next) : next.effort < a.effort := by
  obtain ⟨control, frames, d⟩ := a
  cases control with
  | enter routine =>
      obtain rfl : enter routine frames d = next := by simpa [step] using h
      exact effort_enter_lt routine frames d
  | row rank e =>
      simp only [step] at h
      split at h
      · next hjoins =>
          have hlt := Descent.left_step_lt (Rank.kind_ne_finish_of_joins hjoins)
          have hoperand : (Control.enter (.phrase rank.operand)).effort ≤ 7 := by
            cases rank <;> decide
          cases h
          simp only [effort, Control.effort, Frame.efforts, Frame.effort] at hoperand ⊢
          omega
      · cases h
        simp only [effort, Control.effort]
        omega
  | skip opening content balance =>
      have hclose := effort_close_le opening content frames d
      simp only [step] at h
      split at h
      · cases h
        simp only [effort, Control.effort] at hclose ⊢
        omega
      · next hfinish =>
          have hlt := Descent.left_step_lt hfinish
          split at h
          · cases h
            simp only [effort, Control.effort]
            omega
          · split at h
            · split at h
              · cases h
                simp only [effort, Control.effort] at hclose ⊢
                omega
              · cases h
                simp only [effort, Control.effort]
                omega
            · cases h
              simp only [effort, Control.effort]
              omega
  | leave e =>
      cases frames with
      | nil => cases h
      | cons frame frames =>
          obtain rfl : resume e frame frames d = next := by simpa [step] using h
          exact effort_resume_lt e frame frames d

theorem effort_lt_of_later (h : Relation.TransGen (fun a next => a.step = some next) a next) :
    next.effort < a.effort := by
  induction h with
  | single hstep => exact effort_lt hstep
  | tail _ hstep ih => exact Nat.lt_trans (effort_lt hstep) ih

/-!
### Loops
-/

/-- Whether a loop is at its head and goes on. -/
def Iterates (a : Activity) : Prop :=
  match a.control with
  | .row rank _ => rank.joins a.descent.current.kind = true
  | .skip .. => a.descent.current.kind ≠ .finish
  | _ => False

/-- A loop that goes on takes a token at once. Skipping also takes the parenthesis that ends it. -/
theorem Iterates.exists_step_left_lt (h : a.Iterates) :
    ∃ next, a.step = some next ∧ next.descent.left < a.descent.left := by
  obtain ⟨control, frames, d⟩ := a
  cases control with
  | row rank e => exact ⟨_, if_pos h, Descent.left_step_lt (Rank.kind_ne_finish_of_joins h)⟩
  | skip opening content balance =>
      have hkind : d.current.kind ≠ .finish := h
      have hlt : d.step.left < d.left := Descent.left_step_lt hkind
      simp only [step, if_neg hkind]
      split
      · exact ⟨_, rfl, hlt⟩
      · split
        · next hclosing =>
            split
            · exact ⟨_, rfl, by rwa [close, Descent.expect, if_pos hclosing]⟩
            · exact ⟨_, rfl, hlt⟩
        · exact ⟨_, rfl, hlt⟩
  | enter routine => exact h.elim
  | leave e => exact h.elim

/-- Whenever a loop is at its head again, above the same waiting activations, fewer tokens are
    left. -/
theorem left_lt_of_loop {loop : Loop} (hloop : a.control.loop? = some loop)
    (hlater : Relation.TransGen (fun a next => a.step = some next) a next)
    (hagain : next.control.loop? = some loop) (hframes : next.frames = a.frames) :
    next.descent.left < a.descent.left := by
  have heffort : ∀ control : Control, control.loop? = some loop → control.effort = 1 := by
    intro control hcontrol
    cases control with
    | row rank e => rfl
    | skip opening content balance => rfl
    | enter routine => cases hcontrol
    | leave e => cases hcontrol
  have hlt := effort_lt_of_later hlater
  rw [effort, effort, hframes, heffort _ hloop, heffort _ hagain] at hlt
  omega

/-!
### Nested primaries
-/

/-- The number of primaries that have been called and have not returned. -/
def primaries (a : Activity) : Nat :=
  a.frames.countP Frame.isPrimary +
    match a.control with
    | .enter (.phrase .primary) => 1
    | _ => 0

theorem depth_expect (d : Descent) (kind : Kind) : (d.expect kind).2.depth = d.depth := by
  unfold Descent.expect
  split
  · rfl
  · rfl

/-- All that a step can do to the waiting activations and to the counter of groups: an activation
    that is no primary calls another; a primary enters a group, if there is room for it; a primary
    has a group skipped; the uppermost activation goes on, or returns to itself; or it has returned
    to the one below it. -/
theorem step_cases (h : a.step = some next) :
    (∃ frame, next.frames = frame :: a.frames ∧ frame.isPrimary = false ∧
        a.control.isOverSkipped = false ∧ next.descent.depth = a.descent.depth) ∨
      (∃ opening, next.frames = .group opening :: a.frames ∧ next.control = .enter .expression ∧
        a.control.isOverSkipped = false ∧ a.descent.depth < nestingLimit ∧
        next.descent.depth = a.descent.depth + 1) ∨
      (next.frames = .skipped :: a.frames ∧ next.control = .enter .skipping ∧
        a.control.isOverSkipped = false ∧ next.descent.depth = a.descent.depth) ∨
      (next.frames = a.frames ∧ next.control.isOverSkipped = true ∧
        next.descent.depth = a.descent.depth) ∨
      ∃ frame, a.frames = frame :: next.frames ∧
        next.descent.depth = a.descent.depth - (if frame.isGroup then 1 else 0) := by
  obtain ⟨control, frames, d⟩ := a
  cases control with
  | enter routine =>
      obtain rfl : enter routine frames d = next := by simpa [step] using h
      cases routine with
      | expression => exact .inl ⟨_, rfl, rfl, rfl, rfl⟩
      | skipping => exact .inr (.inr (.inr (.inl ⟨rfl, rfl, rfl⟩)))
      | phrase rank =>
          cases rank with
          | term => exact .inl ⟨_, rfl, rfl, rfl, rfl⟩
          | factor => exact .inl ⟨_, rfl, rfl, rfl, rfl⟩
          | primary =>
              simp only [enter]
              split
              · split
                · exact .inr (.inr (.inl ⟨rfl, rfl, rfl, rfl⟩))
                · next hdepth =>
                    exact .inr (.inl ⟨_, rfl, rfl, rfl, Int.lt_of_not_ge hdepth, rfl⟩)
              · exact .inr (.inr (.inr (.inl ⟨rfl, rfl, depth_expect d .number⟩)))
  | row rank e =>
      simp only [step] at h
      split at h
      · cases h
        exact .inl ⟨_, rfl, rfl, rfl, rfl⟩
      · cases h
        exact .inr (.inr (.inr (.inl ⟨rfl, rfl, rfl⟩)))
  | skip opening content balance =>
      have hclosing := depth_expect d .closing
      refine .inr (.inr (.inr (.inl ?_)))
      simp only [step] at h
      split at h
      · cases h
        exact ⟨rfl, rfl, hclosing⟩
      · split at h
        · cases h
          exact ⟨rfl, rfl, rfl⟩
        · split at h
          · split at h
            · cases h
              exact ⟨rfl, rfl, hclosing⟩
            · cases h
              exact ⟨rfl, rfl, rfl⟩
          · cases h
            exact ⟨rfl, rfl, rfl⟩
  | leave e =>
      refine .inr (.inr (.inr (.inr ?_)))
      cases frames with
      | nil => cases h
      | cons frame frames =>
          obtain rfl : resume e frame frames d = next := by simpa [step] using h
          refine ⟨frame, ?_, ?_⟩
          · cases frame <;> rfl
          · cases frame with
            | group opening => exact depth_expect _ .closing
            | _ => exact (Int.sub_zero _).symm

/-- What holds on the way of a descent that started with a given counter of groups. The counter tells
    how many primaries wait for the content of their groups; and a primary that waits for its group to
    be skipped stands right below an activation that skips it or returns. -/
structure Nests (depth : Int) (a : Activity) : Prop where
  depth_eq : a.descent.depth = depth + a.frames.countP Frame.isGroup
  depth_le : a.descent.depth ≤ nestingLimit
  tail : ∀ frame ∈ a.frames.tail, frame.isSkipped = false
  frames : a.control.isOverSkipped = false → ∀ frame ∈ a.frames, frame.isSkipped = false

variable {depth : Int}

theorem Nests.step (hnests : Nests depth a) (h : a.step = some next) : Nests depth next := by
  obtain ⟨hdepth, hle, htail, hframes⟩ := hnests
  rcases step_cases h with ⟨frame, hnext, hprimary, hover, hsame⟩ |
    ⟨opening, hnext, hcontrol, hover, hroom, hmore⟩ | ⟨hnext, hcontrol, hover, hsame⟩ |
    ⟨hnext, hover, hsame⟩ | ⟨frame, hwaits, hless⟩
  · -- a call of an activation that is no primary
    rw [Frame.isPrimary, Bool.or_eq_false_iff] at hprimary
    have hothers := hframes hover
    refine ⟨?_, hsame ▸ hle, by rwa [hnext], fun _ => ?_⟩
    · simp [hsame, hdepth, hnext, hprimary.1]
    · rw [hnext]
      exact List.forall_mem_cons.mpr ⟨hprimary.2, hothers⟩
  · -- a group that is entered
    have hothers := hframes hover
    refine ⟨?_, by omega, by rwa [hnext], fun _ => ?_⟩
    · rw [hmore, hdepth, hnext, List.countP_cons_of_pos rfl]
      omega
    · rw [hnext]
      exact List.forall_mem_cons.mpr ⟨rfl, hothers⟩
  · -- a group that is skipped
    have hothers := hframes hover
    refine ⟨?_, hsame ▸ hle, by rwa [hnext], fun hover => ?_⟩
    · simp [hsame, hdepth, hnext, Frame.isGroup]
    · rw [hcontrol] at hover
      cases hover
  · -- the uppermost activation itself
    refine ⟨by rw [hsame, hdepth, hnext], hsame ▸ hle, by rwa [hnext], fun hnot => ?_⟩
    rw [hover] at hnot
    cases hnot
  · -- a return
    rw [hwaits, List.tail_cons] at htail
    rw [hwaits, List.countP_cons] at hdepth
    refine ⟨?_, by split at hless <;> omega, ?_, fun _ => htail⟩
    · cases hgroup : frame.isGroup <;> simp [hgroup] at hdepth hless <;> omega
    · exact fun frame hmem => htail frame (List.mem_of_mem_tail hmem)

theorem nests_enter (routine : Routine) {d : Descent} (h : d.depth ≤ nestingLimit) :
    Nests d.depth ⟨.enter routine, [], d⟩ :=
  ⟨(Int.add_zero _).symm, h, by simp, by simp⟩

theorem nests_of_leads {routine : Routine} {d : Descent} (h : d.depth ≤ nestingLimit)
    (hleads : Leads ⟨.enter routine, [], d⟩ a) : Nests d.depth a := by
  induction hleads with
  | refl => exact nests_enter routine h
  | tail _ hstep ih => exact ih.step hstep

/-- Where no group is being skipped the primaries that wait are in groups. -/
theorem countP_isPrimary {frames : List Frame} (h : ∀ frame ∈ frames, frame.isSkipped = false) :
    frames.countP Frame.isPrimary = frames.countP Frame.isGroup := by
  refine List.countP_congr fun frame hmem => ?_
  rw [Frame.isPrimary, h frame hmem, Bool.or_false]

/-- The primaries that are nested in one another are at most one more than the groups that have been
    entered. -/
theorem Nests.primaries_le (h : Nests depth a) :
    (a.primaries : Int) ≤ nestingLimit + 1 - depth := by
  obtain ⟨hdepth, hle, htail, hframes⟩ := h
  obtain ⟨control, frames, d⟩ := a
  have hwaiting : frames.countP Frame.isPrimary ≤ frames.countP Frame.isGroup + 1 := by
    cases frames with
    | nil => exact Nat.zero_le _
    | cons frame frames =>
        have hothers := countP_isPrimary htail
        rw [List.tail_cons] at hothers
        rw [List.countP_cons, List.countP_cons]
        split <;> omega
  simp only [primaries]
  simp only at hdepth hle
  split
  · -- a primary that has just been called
    have hothers := countP_isPrimary (hframes rfl)
    simp only at hothers
    omega
  · omega

end Activity

end Reckoner
