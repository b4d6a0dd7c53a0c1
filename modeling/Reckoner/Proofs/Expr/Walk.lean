/-
Module: Reckoner.Proofs.Expr.Walk
Layer: Proofs
Purpose: Evaluation round by round. A walk holds the nodes that are still pending, each with a mark
  that says whether its operands have been sent ahead of it, and the values found so far. A round
  takes the uppermost node: a number gives its value, a group makes way for what is inside, and a
  binary node sends its operands ahead and is applied to their values when it comes up again. From
  every node the walk ends with what recursion on the tree gives, the first fault in the order of
  evaluation included. It never asks for a value that is not there, exactly one value is there when
  no node is left, and every value on the way is a word.
Main exports: Walk, Walk.round, Walk.Leads, Walk.round_cases, Walk.delivers_expr, Walk.Settles,
  Walk.settles_of_leads, Walk.inRange_of_leads, Walk.walk_ends_with_value
-/
import Reckoner.Expr.Machine
import Mathlib.Logic.Relation

namespace Reckoner

/-- The nodes that are pending, each with whether its operands have been sent ahead, and the values
    found so far. What comes next is at the front of both. -/
structure Walk where
  pending : List (Node × Bool)
  values : List Int

namespace Walk

/-- What a round comes to. -/
inductive Round where
  /-- The walk goes on. -/
  | next (w : Walk)
  | ended (outcome : Except Fault Int)
  /-- A value is asked for that is not there. -/
  | short

/-- The walk before its first round. -/
def start (n : Node) : Walk :=
  ⟨[(n, false)], []⟩

/-- One round. Only for a binary node does it matter whether the node is marked. Without a pending
    node the uppermost value is the outcome, whatever is below it. -/
def round (w : Walk) : Round :=
  match w.pending with
  | [] =>
      match w.values with
      | [] => .short
      | value :: _ => .ended (.ok value)
  | (.leaf token, _) :: _ => .ended (.error (.unexpectedNode token.kind))
  | (.expr (.numeral token), _) :: pending =>
      match token.value with
      | some value => .next ⟨pending, value :: w.values⟩
      | none => .ended (.error .missingValue)
  | (.expr (.group _ inner _), _) :: pending => .next ⟨(.expr inner, false) :: pending, w.values⟩
  | (.expr (.binary left operator right), false) :: pending =>
      .next ⟨(.expr left, false) :: (.expr right, false) ::
        (.expr (.binary left operator right), true) :: pending, w.values⟩
  | (.expr (.binary _ operator _), true) :: pending =>
      match w.values with
      | right :: left :: values =>
          match Operator.apply operator left right with
          | .ok value => .next ⟨pending, value :: values⟩
          | .error fault => .ended (.error fault)
      | _ => .short

/-- After some rounds the walk `w` has become `next`. -/
def Leads : Walk → Walk → Prop :=
  Relation.ReflTransGen fun w next => w.round = .next next

/-- All that a round can do if the walk goes on: a number has given its value, a group has made way,
    a binary node has sent its operands ahead, or an operator has been applied. -/
theorem round_cases {w next : Walk} (h : w.round = .next next) :
    (∃ token visited pending value, w.pending = (.expr (.numeral token), visited) :: pending ∧
        token.value = some value ∧ next = ⟨pending, value :: w.values⟩) ∨
      (∃ opening inner closing visited pending,
        w.pending = (.expr (.group opening inner closing), visited) :: pending ∧
          next = ⟨(.expr inner, false) :: pending, w.values⟩) ∨
      (∃ left operator right pending,
        w.pending = (.expr (.binary left operator right), false) :: pending ∧
          next = ⟨(.expr left, false) :: (.expr right, false) ::
            (.expr (.binary left operator right), true) :: pending, w.values⟩) ∨
      ∃ left operator right pending l r values value,
        w.pending = (.expr (.binary left operator right), true) :: pending ∧
          w.values = r :: l :: values ∧ Operator.apply operator l r = .ok value ∧
          next = ⟨pending, value :: values⟩ := by
  obtain ⟨pending, values⟩ := w
  unfold round at h
  split at h
  case h_1 => split at h <;> cases h
  case h_2 => cases h
  case h_3 token visited pending hpending =>
    split at h
    · next value hvalue =>
        cases h
        exact .inl ⟨token, visited, pending, value, hpending, hvalue, rfl⟩
    · cases h
  case h_4 opening inner closing visited pending hpending =>
    cases h
    exact .inr (.inl ⟨opening, inner, closing, visited, pending, hpending, rfl⟩)
  case h_5 left operator right pending hpending =>
    cases h
    exact .inr (.inr (.inl ⟨left, operator, right, pending, hpending, rfl⟩))
  case h_6 left operator right pending hpending =>
    split at h
    · next r l values hvalues =>
        split at h
        · next value happly =>
            cases h
            exact .inr (.inr (.inr ⟨left, operator, right, pending, l, r, values, value, hpending,
              hvalues, happly, rfl⟩))
        · cases h
    · cases h

/-!
### Where a walk ends

Dealing with an expression takes many rounds, but what they come to does not depend on what else is
pending or which values lie below.
-/

/-- A walk delivers a value if it comes to a point where that value lies on the given values and
    nothing but the given nodes is pending; it delivers a fault if it ends with it. -/
def Delivers (w : Walk) (pending : List (Node × Bool)) (values : List Int) :
    Except Fault Int → Prop
  | .ok value => w.Leads ⟨pending, value :: values⟩
  | .error fault => ∃ last, w.Leads last ∧ last.round = .ended (.error fault)

/-- What a walk delivers it delivers from every point before. -/
theorem Leads.delivers {w next : Walk} {pending : List (Node × Bool)} {values : List Int}
    {outcome : Except Fault Int} (h : w.Leads next) (hnext : next.Delivers pending values outcome) :
    w.Delivers pending values outcome := by
  cases outcome with
  | ok value => exact Relation.ReflTransGen.trans h hnext
  | error fault =>
      obtain ⟨last, hlast, hround⟩ := hnext
      exact ⟨last, Relation.ReflTransGen.trans h hlast, hround⟩

/-- A marked binary node delivers what its operator makes of the two uppermost values. -/
theorem delivers_apply (left : Expr) (operator : Token) (right : Expr)
    (pending : List (Node × Bool)) (l r : Int) (values : List Int) :
    Delivers ⟨(.expr (.binary left operator right), true) :: pending, r :: l :: values⟩
      pending values (Operator.apply operator l r) := by
  cases happly : Operator.apply operator l r with
  | ok value => exact Relation.ReflTransGen.single (by simp only [round, happly])
  | error fault => exact ⟨_, Relation.ReflTransGen.refl, by simp only [round, happly]⟩

/-- An expression delivers its value, whatever else is pending and whatever values lie below. The
    induction is on the expression; the rounds of a binary node go through those of its operands. -/
theorem delivers_expr (e : Expr) (pending : List (Node × Bool)) (values : List Int) :
    Delivers ⟨(.expr e, false) :: pending, values⟩ pending values e.value := by
  induction e generalizing pending values with
  | numeral token =>
      cases hvalue : token.value with
      | some value =>
          simp only [Expr.value, hvalue]
          exact Relation.ReflTransGen.single (by simp only [round, hvalue])
      | none =>
          simp only [Expr.value, hvalue]
          exact ⟨_, Relation.ReflTransGen.refl, by simp only [round, hvalue]⟩
  | group opening inner closing ih =>
      have hround : Leads ⟨(.expr (.group opening inner closing), false) :: pending, values⟩
          ⟨(.expr inner, false) :: pending, values⟩ := Relation.ReflTransGen.single rfl
      exact hround.delivers (ih pending values)
  | binary left operator right ihl ihr =>
      have hround : Leads ⟨(.expr (.binary left operator right), false) :: pending, values⟩
          ⟨(.expr left, false) :: (.expr right, false) ::
            (.expr (.binary left operator right), true) :: pending, values⟩ :=
        Relation.ReflTransGen.single rfl
      apply hround.delivers
      have hleft := ihl ((.expr right, false) ::
        (.expr (.binary left operator right), true) :: pending) values
      cases hl : left.value with
      | error fault =>
          -- The right operand and the operator are left pending when the left one has no value.
          simp only [Expr.value, hl]
          rw [hl] at hleft
          exact hleft
      | ok l =>
          rw [hl] at hleft
          apply Leads.delivers hleft
          have hright := ihr ((.expr (.binary left operator right), true) :: pending) (l :: values)
          cases hr : right.value with
          | error fault =>
              simp only [Expr.value, hl, hr]
              rw [hr] at hright
              exact hright
          | ok r =>
              simp only [Expr.value, hl, hr]
              rw [hr] at hright
              exact Leads.delivers hright (delivers_apply left operator right pending l r values)

/-- From every node the walk ends with the value of the node. -/
theorem exists_ended (n : Node) :
    ∃ last, (start n).Leads last ∧ last.round = .ended n.value := by
  cases n with
  | leaf token => exact ⟨_, Relation.ReflTransGen.refl, rfl⟩
  | expr e =>
      have hdelivers := delivers_expr e [] []
      cases hvalue : e.value with
      | ok value =>
          rw [hvalue] at hdelivers
          exact ⟨_, hdelivers, by simp only [round, Node.value, hvalue]⟩
      | error fault =>
          rw [hvalue] at hdelivers
          simp only [Node.value, hvalue]
          exact hdelivers

/-- Rounds leave no choice. -/
theorem round_rightUnique : Relator.RightUnique fun w next : Walk => w.round = .next next := by
  intro w next other hnext hother
  rw [hnext] at hother
  cases hother
  rfl

/-- A walk that has ended leads nowhere but to itself. -/
theorem Leads.eq_of_ended {w next : Walk} {outcome : Except Fault Int} (h : w.Leads next)
    (hended : w.round = .ended outcome) : next = w := by
  rcases Relation.ReflTransGen.cases_head h with rfl | ⟨between, hround, -⟩
  · rfl
  · rw [hended] at hround
    cases hround

theorem ended_unique {w last other : Walk} {outcome another : Except Fault Int}
    (h : w.Leads last) (hround : last.round = .ended outcome) (hother : w.Leads other)
    (hanother : other.round = .ended another) : another = outcome := by
  have hsame : other = last := by
    rcases Relation.ReflTransGen.total_of_right_unique round_rightUnique h hother with
      hforth | hback
    · exact Leads.eq_of_ended hforth hround
    · exact (Leads.eq_of_ended hback hanother).symm
  rw [hsame, hround] at hanother
  cases hanother
  rfl

/-!
### Values never run short
-/

/-- If so many values have been found, the pending nodes can be dealt with, and one value is there
    in the end. Every node adds a value, but a marked binary node takes two for the one that it
    adds. -/
def Settles : List (Node × Bool) → Nat → Prop
  | [], count => count = 1
  | (.expr (.binary ..), true) :: pending, count => 2 ≤ count ∧ Settles pending (count - 1)
  | _ :: pending, count => Settles pending (count + 1)

/-- A node that is not marked adds a value. -/
theorem settles_visit (n : Node) (pending : List (Node × Bool)) (count : Nat) :
    Settles ((n, false) :: pending) count ↔ Settles pending (count + 1) := by
  cases n with
  | leaf token => exact Iff.rfl
  | expr e => cases e <;> exact Iff.rfl

theorem settles_of_round {w next : Walk} (h : Settles w.pending w.values.length)
    (hround : w.round = .next next) : Settles next.pending next.values.length := by
  obtain ⟨pending, values⟩ := w
  rcases round_cases hround with ⟨token, visited, others, value, rfl, -, rfl⟩ |
    ⟨opening, inner, closing, visited, others, rfl, rfl⟩ |
    ⟨left, operator, right, others, rfl, rfl⟩ |
    ⟨left, operator, right, others, l, r, below, value, rfl, rfl, -, rfl⟩
  · exact h
  · exact (settles_visit _ _ _).mpr h
  · rw [settles_visit, settles_visit]
    exact ⟨Nat.le_add_left 2 _, h⟩
  · exact h.2

/-- Every walk from a node settles. -/
theorem settles_of_leads {n : Node} {w : Walk} (h : (start n).Leads w) :
    Settles w.pending w.values.length := by
  induction h with
  | refl => exact (settles_visit n [] 0).mpr rfl
  | tail _ hround ih => exact settles_of_round ih hround

/-- A walk that settles has the values that its next round asks for. -/
theorem round_ne_short {w : Walk} (h : Settles w.pending w.values.length) : w.round ≠ .short := by
  obtain ⟨pending, values⟩ := w
  intro hshort
  unfold round at hshort
  split at hshort
  case h_1 hpending =>
    obtain rfl : pending = [] := hpending
    split at hshort
    · next hvalues =>
        obtain rfl : values = [] := hvalues
        exact absurd h (by simp [Settles])
    · cases hshort
  case h_2 => cases hshort
  case h_3 => split at hshort <;> cases hshort
  case h_4 => cases hshort
  case h_5 => cases hshort
  case h_6 left operator right others hpending =>
    obtain rfl : pending = _ := hpending
    have hcount : 2 ≤ values.length := h.1
    split at hshort
    · split at hshort <;> cases hshort
    · next hvalues =>
        rcases values with _ | ⟨r, _ | ⟨l, below⟩⟩
        · exact absurd hcount (by simp)
        · exact absurd hcount (by simp)
        · exact hvalues r l below rfl

/-!
### Values are words
-/

/-- Whatever an operator makes of two integers is a word. -/
theorem inRange_of_apply {operator : Token} {left right value : Int}
    (h : Operator.apply operator left right = .ok value) : Word.InRange value := by
  unfold Operator.apply at h
  split at h
  case h_4 =>
    split at h
    · cases h
    · cases h
      exact Word.wrap_inRange _
  case h_5 => cases h
  all_goals
    cases h
    exact Word.wrap_inRange _

/-- All values that a walk from a node has found are words. -/
theorem inRange_of_leads {n : Node} {w : Walk} (h : (start n).Leads w) :
    ∀ value ∈ w.values, Word.InRange value := by
  induction h with
  | refl => simp [start]
  | @tail w next _ hround ih =>
      obtain ⟨pending, values⟩ := w
      rcases round_cases hround with ⟨token, visited, others, value, -, hvalue, rfl⟩ |
        ⟨opening, inner, closing, visited, others, -, rfl⟩ |
        ⟨left, operator, right, others, -, rfl⟩ |
        ⟨left, operator, right, others, l, r, below, value, -, rfl, happly, rfl⟩
      · exact List.forall_mem_cons.mpr ⟨Token.inRange_of_value hvalue, ih⟩
      · exact ih
      · exact ih
      · refine List.forall_mem_cons.mpr ⟨inRange_of_apply happly, ?_⟩
        exact fun value hmem => ih value (.tail _ (.tail _ hmem))

/-!
### The whole walk
-/

/-- From every node, a bare token and a tree that no line has included, the walk ends, and it ends
    with what recursion on the tree gives: a token is the fault of its kind; a number is its value
    or the fault of lacking one; a group is what is inside; and a binary node is the fault of its
    left operand, or else that of its right operand, or else what its operator makes of both. On the
    way no round asks for a value that is not there, and no round but the last ends the walk. When
    no node is pending there is exactly one value, and it is the outcome. -/
theorem walk_ends_with_value (n : Node) :
    (∃ last, (start n).Leads last ∧ last.round = .ended n.value) ∧
      (∀ w, (start n).Leads w →
        w.round ≠ .short ∧ (∀ outcome, w.round = .ended outcome → outcome = n.value) ∧
          (w.pending = [] → ∃ value, w.values = [value] ∧ n.value = .ok value)) ∧
      n.evaluate = n.value := by
  obtain ⟨last, hlast, hended⟩ := exists_ended n
  refine ⟨⟨last, hlast, hended⟩, ?_, n.evaluate_eq_value⟩
  intro w hw
  have hsettles := settles_of_leads hw
  have honly : ∀ outcome, w.round = .ended outcome → outcome = n.value :=
    fun outcome houtcome => ended_unique hlast hended hw houtcome
  refine ⟨round_ne_short hsettles, honly, ?_⟩
  intro hpending
  rw [hpending] at hsettles
  obtain ⟨value, hvalues⟩ := List.length_eq_one_iff.mp hsettles
  exact ⟨value, hvalues, (honly (.ok value) (by simp only [round, hpending, hvalues])).symm⟩

/-- A division by zero on the left comes before the number without a value on the right and before
    the operator that is none of the four. -/
theorem walk_ends_with_value_division :
    let quotient : Expr := .binary (.numeral ⟨.number, 0, "1", some 1, rfl, by decide⟩)
      (.plain .slash 1 "/") (.numeral ⟨.number, 2, "0", some 0, rfl, by decide⟩)
    let e : Expr := .binary quotient (.plain .closing 3 ")") (.numeral (.missing .number 4))
    ∃ last, (start (.expr e)).Leads last ∧ last.round = .ended (.error (.divisionByZero 1)) := by
  intro quotient e
  have hvalue : (Node.expr e).value = .error (.divisionByZero 1) := rfl
  obtain ⟨⟨last, hlast, hended⟩, -, -⟩ := walk_ends_with_value (.expr e)
  rw [hvalue] at hended
  exact ⟨last, hlast, hended⟩

end Walk

end Reckoner
