/-
Module: Reckoner.Proofs.Expr.Evaluation
Layer: Proofs
Purpose: What evaluating a tree can come to. A tree all of whose numbers have values and all of
  whose operators are among the four has a value in the range of words, unless it divides by zero;
  then the fault names a division sign of the tree. Where the tokens of a tree stand is of no account
  for its value, and a division by zero is one at the same sign wherever that is moved to. So trees
  that agree in all but the places and the texts of their tokens come to the same.
Main exports: Expr.Evaluable, Expr.evaluable_of_grammatical, Expr.value_of_evaluable,
  Fault.relocated, Expr.value_relocated, Expr.value_of_map_eq, Machine.run_visit_ne_none
-/
import Reckoner.Expr.Machine
import Reckoner.Proofs.Expr.Relabel

namespace Reckoner

/-- Applying one of the four operators gives a word, unless it is a division by zero. -/
theorem Operator.apply_of_isOperator {operator : Token} (h : operator.kind.isOperator = true)
    (left right : Int) :
    (∃ value, Operator.apply operator left right = .ok value ∧ Word.InRange value) ∨
      (operator.kind = .slash ∧
        Operator.apply operator left right = .error (.divisionByZero operator.position)) := by
  unfold Operator.apply
  cases hkind : operator.kind with
  | plus => exact .inl ⟨_, rfl, Word.wrap_inRange _⟩
  | minus => exact .inl ⟨_, rfl, Word.wrap_inRange _⟩
  | star => exact .inl ⟨_, rfl, Word.wrap_inRange _⟩
  | slash =>
      by_cases hzero : right = 0
      · exact .inr ⟨rfl, by simp [hzero]⟩
      · exact .inl ⟨Word.wrap (left.tdiv right), by simp [hzero], Word.wrap_inRange _⟩
  | _ =>
      rw [hkind] at h
      exact absurd h (by decide)

namespace Expr

/-- The trees that can be evaluated: no number lacks a value, and no operator is unknown. -/
def Evaluable : Expr → Prop
  | numeral token => token.value.isSome = true
  | group _ inner _ => inner.Evaluable
  | binary left operator right =>
      left.Evaluable ∧ operator.kind.isOperator = true ∧ right.Evaluable

/-- A tree of the grammar can be evaluated if its numbers have values. -/
theorem evaluable_of_grammatical {e : Expr} (h : e.Grammatical)
    (hvalues : ∀ token ∈ e.leaves, token.kind = .number → token.value.isSome = true) :
    e.Evaluable := by
  induction e with
  | numeral token => exact hvalues token (by simp [leaves]) h
  | group opening inner closing ih =>
      apply ih h.2.1
      intro token htoken
      exact hvalues token (by simp [leaves, htoken])
  | binary left operator right ihl ihr =>
      refine ⟨ihl h.1 ?_, isOperator_of_grammatical h, ihr h.2.1 ?_⟩
      · intro token htoken
        exact hvalues token (by simp [leaves, htoken])
      · intro token htoken
        exact hvalues token (by simp [leaves, htoken])

/-- Evaluating such a tree gives a word, or else a division by zero at a division sign of the tree.
    -/
theorem value_of_evaluable {e : Expr} (h : e.Evaluable) :
    (∃ value, e.value = .ok value ∧ Word.InRange value) ∨
      ∃ operator ∈ e.leaves, operator.kind = .slash ∧
        e.value = .error (.divisionByZero operator.position) := by
  induction e with
  | numeral token =>
      obtain ⟨value, hvalue⟩ := Option.isSome_iff_exists.mp h
      exact .inl ⟨value, by simp [Expr.value, hvalue], Token.inRange_of_value hvalue⟩
  | group opening inner closing ih =>
      rcases ih h with hword | ⟨operator, hmem, hkind, hfault⟩
      · exact .inl hword
      · exact .inr ⟨operator, by simp [leaves, hmem], hkind, hfault⟩
  | binary left operator right ihl ihr =>
      obtain ⟨hleft, hoperator, hright⟩ := h
      rcases ihl hleft with ⟨l, hl, -⟩ | ⟨slash, hmem, hkind, hfault⟩
      · rcases ihr hright with ⟨r, hr, -⟩ | ⟨slash, hmem, hkind, hfault⟩
        · rcases Operator.apply_of_isOperator hoperator l r with ⟨value, happly, hrange⟩ | hslash
          · exact .inl ⟨value, by simp [Expr.value, hl, hr, happly], hrange⟩
          · exact .inr ⟨operator, by simp [leaves], hslash.1,
              by simp [Expr.value, hl, hr, hslash.2]⟩
        · exact .inr ⟨slash, by simp [leaves, hmem], hkind, by simp [Expr.value, hl, hfault]⟩
      · exact .inr ⟨slash, by simp [leaves, hmem], hkind, by simp [Expr.value, hfault]⟩

end Expr

/-!
### Moving the operators
-/

/-- The same fault, a division by zero being one at the place that takes the place of its own. -/
def Fault.relocated (place : Int → Int) : Fault → Fault
  | divisionByZero position => divisionByZero (place position)
  | fault => fault

/-- An operator that is moved does the same to its operands. -/
theorem Operator.apply_relocated (place : Int → Int) (operator : Token) (left right : Int) :
    Operator.apply (operator.relocated place) left right =
      (Operator.apply operator left right).mapError (Fault.relocated place) := by
  unfold Operator.apply
  rw [Token.kind_relocated]
  cases operator.kind with
  | slash =>
      by_cases hzero : right = 0
      · simp only [hzero, ↓reduceIte]
        rfl
      · simp only [hzero, ↓reduceIte]
        rfl
  | _ => rfl

/-- A tree whose tokens are moved has the same value, or the same fault at the place to which the
    division sign is moved. -/
theorem Expr.value_relocated (place : Int → Int) (e : Expr) :
    (e.map (Token.relocated place)).value = e.value.mapError (Fault.relocated place) := by
  induction e with
  | numeral token =>
      rw [map, value, value, Token.value_relocated]
      cases token.value with
      | none => rfl
      | some value => rfl
  | group opening inner closing ih => exact ih
  | binary left operator right ihl ihr =>
      rw [map, value, value, ihl, ihr]
      cases left.value with
      | error fault => rfl
      | ok l =>
          cases right.value with
          | error fault => rfl
          | ok r => exact Operator.apply_relocated place operator l r

/-!
### Trees that agree
-/

/-- Operators of the same kind give the same value from the same operands, or each divides by zero at
    its own place. -/
theorem Operator.apply_of_kind_eq {one other : Token} (h : other.kind = one.kind)
    (hoperator : one.kind.isOperator = true) (left right : Int) :
    (∃ value, Operator.apply one left right = .ok value ∧
        Operator.apply other left right = .ok value) ∨
      (one.kind = .slash ∧ Operator.apply one left right = .error (.divisionByZero one.position) ∧
        Operator.apply other left right = .error (.divisionByZero other.position)) := by
  have hother : Operator.apply other left right =
      (Operator.apply one left right).mapError (Fault.relocated fun _ => other.position) := by
    rw [← apply_relocated, apply, apply, h]
    rfl
  rcases apply_of_isOperator hoperator left right with ⟨value, hvalue, -⟩ | ⟨hslash, hfault⟩
  · rw [hvalue] at hother
    exact .inl ⟨value, hvalue, hother⟩
  · rw [hfault] at hother
    exact .inr ⟨hslash, hfault, hother⟩

theorem Expr.length_leaves_of_map_eq {f : Token → Token} {one other : Expr}
    (h : one.map f = other.map f) : one.leaves.length = other.leaves.length := by
  simpa using congrArg (fun e => e.leaves.length) h

/-- Trees that agree in their shape and in the kinds and values of their tokens have the same value, or
    they divide by zero at division signs that are at the same place among their leaves. -/
theorem Expr.value_of_map_eq {f : Token → Token} (hkind : ∀ token, (f token).kind = token.kind)
    (hvalue : ∀ token, (f token).value = token.value) {one other : Expr}
    (h : one.map f = other.map f) (hone : one.Evaluable) :
    (∃ value, one.value = .ok value ∧ other.value = .ok value) ∨
      ∃ slash sign, (slash, sign) ∈ one.leaves.zip other.leaves ∧ slash.kind = .slash ∧
        sign.kind = .slash ∧ one.value = .error (.divisionByZero slash.position) ∧
        other.value = .error (.divisionByZero sign.position) := by
  induction one generalizing other with
  | numeral token =>
      cases other with
      | numeral number =>
          have htoken : f token = f number := Expr.numeral.inj h
          have hsame : number.value = token.value := by rw [← hvalue, ← htoken, hvalue]
          obtain ⟨value, hword⟩ := Option.isSome_iff_exists.mp hone
          exact .inl ⟨value, by simp [Expr.value, hword], by simp [Expr.value, hsame, hword]⟩
      | group => exact absurd h (by simp [map])
      | binary => exact absurd h (by simp [map])
  | group opening inner closing ih =>
      cases other with
      | numeral => exact absurd h (by simp [map])
      | group first content last =>
          obtain ⟨-, hinner, -⟩ := Expr.group.inj h
          rcases ih hinner hone with hword | ⟨slash, sign, hmem, hfault⟩
          · exact .inl hword
          · refine .inr ⟨slash, sign, ?_, hfault⟩
            rw [leaves, leaves, List.zip_cons_cons,
              List.zip_append (length_leaves_of_map_eq hinner)]
            simp [hmem]
      | binary => exact absurd h (by simp [map])
  | binary left operator right ihl ihr =>
      cases other with
      | numeral => exact absurd h (by simp [map])
      | group => exact absurd h (by simp [map])
      | binary first mark second =>
          obtain ⟨hleft, hoperator, hright⟩ := Expr.binary.inj h
          obtain ⟨hevaluable, hfour, hrest⟩ := hone
          have hsame : mark.kind = operator.kind := by rw [← hkind, ← hoperator, hkind]
          have hzip : (binary left operator right).leaves.zip (binary first mark second).leaves =
              left.leaves.zip first.leaves ++
                (operator, mark) :: right.leaves.zip second.leaves := by
            rw [leaves, leaves, List.zip_append (length_leaves_of_map_eq hleft),
              List.zip_cons_cons]
          rw [hzip]
          -- The first of the two operands and the operator that fails does so in both trees.
          rcases ihl hleft hevaluable with ⟨l, hl, hl'⟩ |
            ⟨slash, sign, hmem, hslash, hsign, hl, hl'⟩
          · rcases ihr hright hrest with ⟨r, hr, hr'⟩ |
              ⟨slash, sign, hmem, hslash, hsign, hr, hr'⟩
            · rcases Operator.apply_of_kind_eq hsame hfour l r with ⟨value, hone, hother⟩ |
                ⟨hslash, hone, hother⟩
              · exact .inl ⟨value, by simp [Expr.value, hl, hr, hone],
                  by simp [Expr.value, hl', hr', hother]⟩
              · exact .inr ⟨operator, mark, by simp, hslash, hsame.trans hslash,
                  by simp [Expr.value, hl, hr, hone], by simp [Expr.value, hl', hr', hother]⟩
            · exact .inr ⟨slash, sign, by simp [hmem], hslash, hsign,
                by simp [Expr.value, hl, hr], by simp [Expr.value, hl', hr']⟩
          · exact .inr ⟨slash, sign, by simp [hmem], hslash, hsign, by simp [Expr.value, hl],
              by simp [Expr.value, hl']⟩

/-- The machine is not stuck on any expression: it finds two values for every operator and is left
    with one. -/
theorem Machine.run_visit_ne_none (e : Expr) : Machine.run [.visit (.expr e)] [] ≠ none := by
  rw [Machine.run_visit]
  cases e.value with
  | error fault => simp
  | ok value => simp [Machine.run]

end Reckoner
