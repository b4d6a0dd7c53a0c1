/-
Module: Reckoner.Proofs.Expr.Words
Layer: Proofs
Purpose: Evaluation as a machine of 32-bit words does it. Over words every operator is a machine
  operation: sums, differences and products keep their last 32 bits, and a quotient is rounded
  toward zero, the least word divided by -1 being the least word again. Evaluating exactly and
  reducing every result gives the same integers, and it divides by zero where the words do.
Main exports: Word.wrap_eq_bmod, Operator.onWords, Expr.words, Expr.value_eq_words,
  Expr.evaluate_eq_words
-/
import Mathlib.Algebra.Group.Nat.Defs
import Reckoner.Proofs.Expr.Evaluation
import Reckoner.Proofs.Expr.Walk

namespace Reckoner

/-- Wrapping keeps the last 32 bits and reads them with their sign. -/
theorem Word.wrap_eq_bmod (value : Int) : wrap value = value.bmod (2 ^ 32) := by
  rw [Int.bmod_def, wrap, least]
  omega

/-- A value in the range of words is the reading of a word. -/
theorem Word.toInt_ofInt {value : Int} (h : InRange value) : (Int32.ofInt value).toInt = value :=
  Int32.toInt_ofInt_of_le h.1 (Int.lt_add_one_of_le h.2)

/-!
### Operators
-/

namespace Operator

/-- Applies one of the four operators to words. There is no quotient for a zero divisor, but the
    position of the operator. -/
def onWords (operator : Token) (left right : Int32) : Except Int Int32 :=
  match operator.kind with
  | .minus => .ok (left - right)
  | .star => .ok (left * right)
  | .slash => if right = 0 then .error operator.position else .ok (left / right)
  | _ => .ok (left + right)

end Operator

/-- The reading of what an evaluation over words comes to. -/
def signed : Except Int Int32 → Except Fault Int
  | .ok word => .ok word.toInt
  | .error position => .error (.divisionByZero position)

/-- An operator does to the readings of two words what it does to the words. -/
theorem Operator.apply_toInt {operator : Token} (h : operator.kind.isOperator = true)
    (left right : Int32) :
    apply operator left.toInt right.toInt = signed (onWords operator left right) := by
  unfold apply onWords
  cases hkind : operator.kind with
  | plus => simp only [signed, Int32.toInt_add, Word.wrap_eq_bmod]
  | minus => simp only [signed, Int32.toInt_sub, Word.wrap_eq_bmod]
  | star => simp only [signed, Int32.toInt_mul, Word.wrap_eq_bmod]
  | slash =>
      have hzero : right.toInt = 0 ↔ right = 0 := by
        rw [← Int32.toInt_inj, Int32.toInt_zero]
      by_cases hright : right = 0
      · simp only [if_pos hright, if_pos (hzero.mpr hright), signed]
      · simp only [if_neg hright, if_neg (mt hzero.mp hright), signed, Int32.toInt_div,
          Word.wrap_eq_bmod]
  | _ =>
      rw [hkind] at h
      exact absurd h (by decide)

/-!
### Trees
-/

namespace Expr

/-- Evaluates a tree over words, operands from left to right and then the operator. The first
    division that finds a zero divisor ends it with its position. -/
def words : (e : Expr) → e.Evaluable → Except Int Int32
  | numeral token, h => .ok (Int32.ofInt (token.value.get h))
  | group _ inner _, h => inner.words h
  | binary left operator right, h =>
      match left.words h.1 with
      | .error position => .error position
      | .ok l =>
          match right.words h.2.2 with
          | .error position => .error position
          | .ok r => Operator.onWords operator l r

/-- The value of a tree is what evaluation over words gives. -/
theorem value_eq_words (e : Expr) (h : e.Evaluable) : e.value = signed (e.words h) := by
  induction e with
  | numeral token =>
      obtain ⟨number, hnumber⟩ := Option.isSome_iff_exists.mp h
      simp only [value, words, hnumber, Option.get_some, signed,
        Word.toInt_ofInt (Token.inRange_of_value hnumber)]
  | group opening inner closing ih => exact ih h
  | binary left operator right ihl ihr =>
      rw [value, words, ihl h.1, ihr h.2.2]
      cases left.words h.1 with
      | error position => rfl
      | ok l =>
          cases right.words h.2.2 with
          | error position => rfl
          | ok r => exact Operator.apply_toInt h.2.1 l r

/-- A tree all of whose numbers have values and all of whose operators are among the four evaluates
    to the signed reading of the word to which it evaluates over words. It divides by zero exactly
    if evaluation over words does, and at the same operator. Every value that is found on the way,
    by whatever number of rounds, is in the range of words, and so is its reading the value itself.
    -/
theorem evaluate_eq_words (e : Expr) (h : e.Evaluable) :
    (∀ word, e.words h = .ok word ↔ (Node.expr e).evaluate = .ok word.toInt) ∧
      (∀ position, e.words h = .error position ↔
        (Node.expr e).evaluate = .error (.divisionByZero position)) ∧
      ((∃ word, e.words h = .ok word) ∨ ∃ position, e.words h = .error position) ∧
      ∀ w, (Walk.start (.expr e)).Leads w → ∀ value ∈ w.values,
        Word.InRange value ∧ (Int32.ofInt value).toInt = value := by
  have hvalue : (Node.expr e).evaluate = signed (e.words h) := by
    rw [Node.evaluate_eq_value]
    exact e.value_eq_words h
  have hwalk : ∀ w, (Walk.start (.expr e)).Leads w → ∀ value ∈ w.values,
      Word.InRange value ∧ (Int32.ofInt value).toInt = value := by
    intro w hw value hmem
    have hrange := Walk.inRange_of_leads hw value hmem
    exact ⟨hrange, Word.toInt_ofInt hrange⟩
  rw [hvalue]
  cases e.words h with
  | ok word =>
      refine ⟨fun other => ?_, fun position => ?_, .inl ⟨word, rfl⟩, hwalk⟩
      · simp only [signed, Except.ok.injEq, Int32.toInt_inj]
      · simp only [signed, reduceCtorEq]
  | error position =>
      refine ⟨fun word => ?_, fun other => ?_, .inr ⟨position, rfl⟩, hwalk⟩
      · simp only [signed, reduceCtorEq]
      · simp only [signed, Except.error.injEq, Fault.divisionByZero.injEq]

/-- The least word divided by -1 is the least word, and one less is the greatest word. -/
theorem evaluate_eq_words_least :
    let least : Expr := .numeral ⟨.number, 0, "-2147483648", some (-2147483648), rfl, by decide⟩
    let minusOne : Expr := .numeral ⟨.number, 14, "-1", some (-1), rfl, by decide⟩
    let one : Expr := .numeral ⟨.number, 19, "1", some 1, rfl, by decide⟩
    let quotient : Expr := .binary least (.plain .slash 12 "/") minusOne
    let e : Expr := .binary quotient (.plain .minus 17 "-") one
    e.Evaluable ∧ (Node.expr e).evaluate = .ok 2147483647 := by
  intro least minusOne one quotient e
  have h : e.Evaluable := ⟨⟨rfl, rfl, rfl⟩, rfl, rfl⟩
  have hwords : e.words h = .ok Int32.maxValue := by cbv
  exact ⟨h, ((evaluate_eq_words e h).1 Int32.maxValue).mp hwords⟩

end Expr

end Reckoner
