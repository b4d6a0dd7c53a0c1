/-
Module: Reckoner.Proofs.Tree.Allowance
Layer: Proofs
Purpose: Reading with an allowance. The allowance is the number of primaries that may be nested in one
  another; a reading that needs more gives nothing. A descent that has entered `depth` groups needs no
  more than 129 - depth, however long or malformed the line is, because every nested primary but the
  last has entered a group. With the steps of a descent this says that every routine returns, with the
  counter of groups as it was, and that every loop takes tokens.
Main exports: Descent.rowWithin, Descent.primaryWithin, Descent.readWithin, Descent.callWithin,
  Descent.readWithin_eq, Descent.moves_call, Descent.call_ends
-/
import Reckoner.Proofs.Tree.Activity

namespace Reckoner.Descent

/-!
### Reading within an allowance
-/

/-- Goes on with a row of operands, given what reads an operand or gives nothing. -/
def rowWithin (rank : Rank) (operand : (d : Descent) → Option (Passage d)) (e : Expr)
    (d : Descent) : Option (Passage d) :=
  if _ : rank.joins d.current.kind = true then
    match operand d.step with
    | none => none
    | some right =>
        match rowWithin rank operand (.binary e d.current right.tree) right.behind with
        | none => none
        | some whole => some ⟨whole.tree, whole.behind,
            Nat.le_trans whole.left_le (Nat.le_trans right.left_le d.left_step_le)⟩
  else some ⟨e, d, Nat.le_refl _⟩
termination_by d.left
decreasing_by
  exact Nat.lt_of_le_of_lt right.left_le
    (left_step_lt (Rank.kind_ne_finish_of_joins (by assumption)))

/-- Reads a row of operands, given what reads an operand or gives nothing. -/
def phraseWithin (rank : Rank) (operand : (d : Descent) → Option (Passage d)) (d : Descent) :
    Option (Passage d) :=
  match operand d with
  | none => none
  | some first =>
      match rowWithin rank operand first.tree first.behind with
      | none => none
      | some whole => some ⟨whole.tree, whole.behind, Nat.le_trans whole.left_le first.left_le⟩

/-- Reads a primary in which no more primaries are nested than the allowance has left. -/
def primaryWithin : Nat → (d : Descent) → Option (Passage d)
  | 0, _ => none
  | allowance + 1, d =>
      if d.current.kind = .opening then
        if nestingLimit ≤ d.depth then some ⟨d.skipGroup.1, d.skipGroup.2, d.left_skipGroup_le⟩
        else
          match phraseWithin .term (phraseWithin .factor (primaryWithin allowance))
              { d.step with depth := d.step.depth + 1 } with
          | none => none
          | some inner =>
              let closing := { inner.behind with depth := inner.behind.depth - 1 }.expect .closing
              some ⟨.group d.current inner.tree closing.1, closing.2, by
                have hclosing := left_expect_le { inner.behind with depth := inner.behind.depth - 1 }
                  .closing
                exact Nat.le_trans hclosing (Nat.le_trans inner.left_le d.left_step_le)⟩
      else
        let number := d.expect .number
        some ⟨.numeral number.1, number.2, d.left_expect_le .number⟩

variable {d : Descent} {rank : Rank} {operand : (d : Descent) → Option (Passage d)}

/-- A row goes on behind an operand that is read within the allowance. -/
theorem rowWithin_join {e : Expr} {right : Passage d.step} {whole : Passage right.behind}
    (hjoins : rank.joins d.current.kind = true) (hright : operand d.step = some right)
    (hwhole : rowWithin rank operand (.binary e d.current right.tree) right.behind = some whole) :
    rowWithin rank operand e d = some ⟨whole.tree, whole.behind,
      Nat.le_trans whole.left_le (Nat.le_trans right.left_le d.left_step_le)⟩ := by
  rw [rowWithin, dif_pos hjoins]
  simp only [hright, hwhole]

/-- A row is read within the allowance if its first operand and what follows are. -/
theorem phraseWithin_row {first : Passage d} {whole : Passage first.behind}
    (hfirst : operand d = some first)
    (hwhole : rowWithin rank operand first.tree first.behind = some whole) :
    phraseWithin rank operand d =
      some ⟨whole.tree, whole.behind, Nat.le_trans whole.left_le first.left_le⟩ := by
  unfold phraseWithin
  simp only [hfirst, hwhole]

/-- Reads a phrase of a level within an allowance. -/
def readWithin (allowance : Nat) : Rank → (d : Descent) → Option (Passage d)
  | .primary => primaryWithin allowance
  | .factor => phraseWithin .factor (primaryWithin allowance)
  | .term => phraseWithin .term (phraseWithin .factor (primaryWithin allowance))

/-- What calling a routine comes to within an allowance. Skipping a group reads no primaries. -/
def callWithin (allowance : Nat) (d : Descent) : Activity.Routine → Option (Expr × Descent)
  | .expression => (readWithin allowance .term d).map fun p => (p.tree, p.behind)
  | .phrase rank => (readWithin allowance rank d).map fun p => (p.tree, p.behind)
  | .skipping => some d.skipGroup

/-!
### The allowance that is enough
-/

theorem depth_call (routine : Activity.Routine) {d : Descent} (h : d.depth ≤ nestingLimit) :
    (d.call routine).2.depth = d.depth := by
  have hnests := Activity.nests_of_leads h (Activity.returns_call routine d [])
  exact hnests.depth_eq.trans (Int.add_zero _)

/-- A phrase leaves the counter of groups as it was. -/
theorem depth_read (rank : Rank) {d : Descent} (h : d.depth ≤ nestingLimit) :
    (d.read rank).behind.depth = d.depth :=
  depth_call (.phrase rank) h

/-- An allowance is enough for a counter if it has one primary more than there is room for groups. -/
def Enough (allowance : Nat) (d : Descent) : Prop :=
  d.depth ≤ nestingLimit ∧ (nestingLimit : Int) + 1 ≤ d.depth + allowance

/-- What is enough in front of a phrase is enough behind it. -/
theorem Enough.behind {allowance : Nat} {d : Descent} (h : Enough allowance d) (rank : Rank) :
    Enough allowance (d.read rank).behind := by
  rw [Enough, depth_read rank h.1]
  exact h

/-- Whether any allowance that is enough gives what reading without one gives. -/
def ReadsWithin (rank : Rank) (d : Descent) : Prop :=
  ∀ allowance, Enough allowance d → readWithin allowance rank d = some (d.read rank)

/-- The same for going on with a row. -/
def ExtendsWithin (rank : Rank) (e : Expr) (d : Descent) : Prop :=
  ∀ allowance, Enough allowance d →
    rowWithin rank (readWithin allowance rank.operand) e d = some (extend rank e d)

/-- Any allowance that is enough gives what reading without one gives. There is one case for each way
    in which `read` and `extend` go on; only the content of a group is read with less. -/
theorem readWithin_eq (rank : Rank) (d : Descent) : ReadsWithin rank d := by
  refine read.induct ReadsWithin ExtendsWithin ?_ ?_ ?_ ?_ ?_ ?_ ?_ rank d
  · -- a group past the limit
    intro d hopening hdepth allowance henough
    obtain ⟨allowance, rfl⟩ : ∃ less, allowance = less + 1 := by
      obtain ⟨hle, hroom⟩ := henough
      exact ⟨allowance - 1, by omega⟩
    rw [readWithin, primaryWithin, read, if_pos hopening, if_pos hdepth, dif_pos hopening,
      if_pos hdepth]
  · -- a group for which there is room
    intro d hopening hdepth ih allowance henough
    obtain ⟨hle, hroom⟩ := henough
    obtain ⟨allowance, rfl⟩ : ∃ less, allowance = less + 1 := ⟨allowance - 1, by omega⟩
    have hinside : Enough allowance { d.step with depth := d.step.depth + 1 } := by
      have hstep : d.step.depth = d.depth := rfl
      constructor <;> simp only <;> omega
    have hinner := ih allowance hinside
    rw [readWithin] at hinner
    rw [readWithin, primaryWithin, read, if_pos hopening, if_neg hdepth, dif_pos hopening,
      if_neg hdepth]
    simp only [hinner]
  · -- a number
    intro d hopening allowance henough
    obtain ⟨allowance, rfl⟩ : ∃ less, allowance = less + 1 := by
      obtain ⟨hle, hroom⟩ := henough
      exact ⟨allowance - 1, by omega⟩
    rw [readWithin, primaryWithin, read, if_neg hopening, dif_neg hopening]
  · -- a factor
    intro d first ihfirst ihothers _ allowance henough
    have hothers := ihothers allowance (henough.behind .primary)
    rw [read]
    exact phraseWithin_row (ihfirst allowance henough) hothers
  · -- a term
    intro d first ihfirst ihothers _ allowance henough
    have hothers := ihothers allowance (henough.behind .factor)
    rw [read]
    exact phraseWithin_row (ihfirst allowance henough) hothers
  · -- an operator and a further operand
    intro rank e d hjoins right ihright ihothers _ allowance henough
    have hstep : Enough allowance d.step := henough
    have hothers := ihothers allowance (hstep.behind rank.operand)
    rw [extend, dif_pos hjoins]
    exact rowWithin_join hjoins (ihright allowance hstep) hothers
  · -- no further operator
    intro rank e d hjoins allowance henough
    rw [rowWithin, dif_neg hjoins, extend, dif_neg hjoins]

/-- A call within an allowance that is enough comes to what it comes to without one. -/
theorem callWithin_eq {allowance : Nat} {d : Descent} (h : Enough allowance d)
    (routine : Activity.Routine) : d.callWithin allowance routine = some (d.call routine) := by
  cases routine with
  | expression => rw [callWithin, readWithin_eq .term d allowance h, Option.map_some, call]
  | phrase rank => rw [callWithin, readWithin_eq rank d allowance h, Option.map_some, call]
  | skipping => rfl

/-!
### The readers that run
-/

/-- What the readers hand back for a routine, given the room for groups and the tokens ahead. They
    skip only where a token opens the group. -/
def phrase? (stop : Int) (room : Nat) : Activity.Routine → List Token → Option Phrase
  | .expression, tokens => some ((Rank.term.reader stop room).read tokens)
  | .phrase rank, tokens => some ((rank.reader stop room).read tokens)
  | .skipping, opening :: behind => some (Reckoner.skipGroup stop opening behind)
  | .skipping, [] => none

/-- A call comes to what the readers hand back that have room for the groups not yet entered, and the
    descent moves behind that. -/
theorem moves_call {routine : Activity.Routine} {room : Nat} {p : Phrase}
    (hroom : d.depth + room = nestingLimit)
    (hfinish : ∀ token ∈ d.lexemes.tokens, token.kind ≠ .finish)
    (h : phrase? d.lexemes.stop room routine d.ahead = some p) :
    (d.call routine).1 = p.tree ∧ d.Moves p.rest p.reports (d.call routine).2 := by
  cases routine with
  | expression =>
      cases h
      exact readsAsReaders .term d room hroom hfinish
  | phrase rank =>
      cases h
      exact readsAsReaders rank d room hroom hfinish
  | skipping =>
      cases hahead : d.ahead with
      | nil =>
          rw [hahead] at h
          cases h
      | cons opening behind =>
          rw [hahead] at h
          cases h
          refine moves_skipGroup hahead fun token hmem => hfinish token ?_
          have hbehind : token ∈ d.lexemes.tokens.drop d.place := by
            rw [Cursor.ahead] at hahead
            exact hahead ▸ List.mem_cons_of_mem opening hmem
          exact List.mem_of_mem_drop hbehind

/-!
### The result
-/

/-- Every routine ends with bounded nesting, from any place among the tokens of a line, or past them,
    with the counter of groups anywhere up to the limit. It returns to whatever waits for it, with the
    counter as it was. On the way there its steps never get stuck; no more primaries are nested than
    the limit has room for groups, and one; a loop that goes on takes a token at once, and has fewer
    left whenever it is at its head again. A reading that is allowed so many nested primaries gives
    the same, and it is what the readers hand back that have room for so many groups. -/
theorem call_ends (routine : Activity.Routine) (d : Descent) (hdepth : d.depth ≤ nestingLimit)
    (hfinish : ∀ token ∈ d.lexemes.tokens, token.kind ≠ .finish) :
    (∀ frames, Activity.Leads ⟨.enter routine, frames, d⟩
        ⟨.leave (d.call routine).1, frames, (d.call routine).2⟩) ∧
      (d.call routine).2.depth = d.depth ∧
      (∀ a, Activity.Leads ⟨.enter routine, [], d⟩ a →
        a.Leads ⟨.leave (d.call routine).1, [], (d.call routine).2⟩ ∧
        (a.primaries : Int) ≤ nestingLimit + 1 - d.depth ∧
        (a.Iterates → ∃ next, a.step = some next ∧ next.descent.left < a.descent.left) ∧
        ∀ loop next, a.control.loop? = some loop →
          Relation.TransGen (fun a next => a.step = some next) a next →
          next.control.loop? = some loop → next.frames = a.frames →
          next.descent.left < a.descent.left) ∧
      (∀ fuel : Nat, (nestingLimit : Int) + 1 - d.depth ≤ fuel →
        d.callWithin fuel routine = some (d.call routine)) ∧
      ∀ room : Nat, d.depth + room = nestingLimit →
        ∀ p, phrase? d.lexemes.stop room routine d.ahead = some p →
          (d.call routine).1 = p.tree ∧ d.Moves p.rest p.reports (d.call routine).2 := by
  refine ⟨Activity.returns_call routine d, depth_call routine hdepth, ?_, ?_, ?_⟩
  · intro a hleads
    have hnests := Activity.nests_of_leads hdepth hleads
    refine ⟨hleads.returns, hnests.primaries_le, ?_, ?_⟩
    · exact Activity.Iterates.exists_step_left_lt
    · intro loop next hloop hlater hagain hframes
      exact Activity.left_lt_of_loop hloop hlater hagain hframes
  · intro fuel hfuel
    exact callWithin_eq ⟨hdepth, by omega⟩ routine
  · intro room hroom p hp
    exact moves_call hroom hfinish hp

/-- Two groups that nothing closes, with room for one. One primary is not enough, two are. -/
theorem call_ends_unclosed :
    let d : Descent := { ofLine "((1+" with depth := 127 }
    d.depth ≤ nestingLimit ∧ (∀ token ∈ d.lexemes.tokens, token.kind ≠ .finish) ∧
      d.callWithin 1 (.phrase .primary) = none ∧
      d.callWithin 2 (.phrase .primary) = some (d.call (.phrase .primary)) ∧
      (d.call (.phrase .primary)).2.depth = 127 := by
  intro d
  have hdepth : d.depth ≤ nestingLimit := by decide
  have hfinish : ∀ token ∈ d.lexemes.tokens, token.kind ≠ .finish := by decide +kernel
  have hnone : d.callWithin 1 (.phrase .primary) = none := by
    have hopening : d.current.kind = .opening := by decide +kernel
    have hroom : ¬ (nestingLimit : Int) ≤ d.depth := by decide
    rw [callWithin, readWithin, primaryWithin, if_pos hopening, if_neg hroom]
    rfl
  obtain ⟨-, hsame, -, hfuel, -⟩ := call_ends (.phrase .primary) d hdepth hfinish
  exact ⟨hdepth, hfinish, hnone, hfuel 2 (by decide), hsame⟩

end Reckoner.Descent
