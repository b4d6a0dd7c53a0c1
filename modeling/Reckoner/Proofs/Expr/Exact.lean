/-
Module: Reckoner.Proofs.Expr.Exact
Layer: Proofs
Purpose: Sums and products without overflow. As long as nothing is divided, reducing every result on
  the way and reducing once at the end come to the same: a reduced integer differs from the exact one
  by a multiple of 2^32, and sums, differences and products keep such differences. So only the exact
  value counts, and how the sums and products that make it up are written does not.
Main exports: Kind.isExact, Word.wrap_eq_wrap_iff, Expr.Undivided, Expr.exact,
  Expr.value_eq_wrap_exact, Rearranged, Rearranged.exact_eq, Expr.evaluate_eq_wrap_exact
-/
import Mathlib.Data.Int.ModEq
import Mathlib.Tactic.Ring
import Reckoner.Expr.Machine

namespace Reckoner

namespace Kind

/-- The operators that integers are closed under. -/
def isExact : Kind → Bool
  | plus | minus | star => true
  | _ => false

theorem isExact_cases {kind : Kind} (h : kind.isExact = true) :
    kind = .plus ∨ kind = .minus ∨ kind = .star := by
  cases kind with
  | plus => exact .inl rfl
  | minus => exact .inr (.inl rfl)
  | star => exact .inr (.inr rfl)
  | _ => exact absurd h (by decide)

end Kind

/-!
### Reduced integers
-/

namespace Word

/-- A reduced integer differs from the integer by a multiple of 2^32. -/
theorem wrap_modEq (value : Int) : wrap value ≡ value [ZMOD 2 ^ 32] :=
  wrap_emod value

/-- Integers are reduced to the same word exactly if they differ by a multiple of 2^32. -/
theorem wrap_eq_wrap_iff {one other : Int} : wrap one = wrap other ↔ one ≡ other [ZMOD 2 ^ 32] := by
  constructor
  · intro h
    calc one ≡ wrap one [ZMOD 2 ^ 32] := (wrap_modEq one).symm
      _ ≡ other [ZMOD 2 ^ 32] := h ▸ wrap_modEq other
  · intro h
    have hoffset : (one - least) % 4294967296 = (other - least) % 4294967296 := h.sub_right least
    rw [wrap, wrap, hoffset]

end Word

namespace Operator

/-- What an operator makes of two integers if nothing is reduced. -/
def exact (operator : Token) (left right : Int) : Int :=
  match operator.kind with
  | .minus => left - right
  | .star => left * right
  | _ => left + right

/-- An exact operator never fails: what it makes of two integers is reduced. -/
theorem apply_of_isExact {operator : Token} (h : operator.kind.isExact = true) (left right : Int) :
    apply operator left right = .ok (Word.wrap (exact operator left right)) := by
  rcases Kind.isExact_cases h with hkind | hkind | hkind
  · simp only [apply, exact, hkind]
  · simp only [apply, exact, hkind]
  · simp only [apply, exact, hkind]

/-- Differences by multiples of 2^32 between the operands make such a difference between the
    results. -/
theorem exact_modEq (operator : Token) {l left r right : Int} (hleft : l ≡ left [ZMOD 2 ^ 32])
    (hright : r ≡ right [ZMOD 2 ^ 32]) :
    exact operator l r ≡ exact operator left right [ZMOD 2 ^ 32] := by
  unfold exact
  split
  · exact hleft.sub hright
  · exact hleft.mul hright
  · exact hleft.add hright

end Operator

/-!
### Exact values
-/

namespace Expr

/-- The trees that can be evaluated without dividing: no number lacks a value, and every operator
    adds, subtracts or multiplies. -/
def Undivided : Expr → Prop
  | numeral token => token.value.isSome = true
  | group _ inner _ => inner.Undivided
  | binary left operator right =>
      left.Undivided ∧ operator.kind.isExact = true ∧ right.Undivided

/-- The value of such a tree over the integers, nothing being reduced on the way. -/
def exact : (e : Expr) → e.Undivided → Int
  | numeral token, h => token.value.get h
  | group _ inner _, h => inner.exact h
  | binary left operator right, h =>
      Operator.exact operator (left.exact h.1) (right.exact h.2.2)

/-- Such a tree has a value, which is its exact value reduced. The values of the operands are reduced
    already, but that makes a difference by a multiple of 2^32 only. -/
theorem value_eq_wrap_exact (e : Expr) (h : e.Undivided) : e.value = .ok (Word.wrap (e.exact h)) := by
  induction e with
  | numeral token =>
      obtain ⟨number, hnumber⟩ := Option.isSome_iff_exists.mp h
      simp only [value, exact, hnumber, Option.get_some,
        Word.wrap_of_inRange (Token.inRange_of_value hnumber)]
  | group opening inner closing ih => exact ih h
  | binary left operator right ihl ihr =>
      have hreduced : Word.wrap (Operator.exact operator (Word.wrap (left.exact h.1))
            (Word.wrap (right.exact h.2.2))) =
          Word.wrap ((binary left operator right).exact h) :=
        Word.wrap_eq_wrap_iff.mpr
          (Operator.exact_modEq operator (Word.wrap_modEq _) (Word.wrap_modEq _))
      rw [value, ihl h.1, ihr h.2.2]
      exact (Operator.apply_of_isExact h.2.1 _ _).trans (congrArg Except.ok hreduced)

end Expr

/-!
### Rearranged sums and products
-/

/-- Three operators of which the first and the second join three operands from the right, and the
    first and the third join the same operands from the left: `a - (b - c)` is `(a - b) + c`. -/
def Kind.regroupings : List (Kind × Kind × Kind) :=
  [(plus, plus, plus), (plus, minus, minus), (minus, plus, minus), (minus, minus, plus),
    (star, star, star)]

theorem Kind.regroupings_cases {first second third : Kind}
    (h : (first, second, third) ∈ regroupings) :
    (first = plus ∧ second = plus ∧ third = plus) ∨ (first = plus ∧ second = minus ∧ third = minus) ∨
      (first = minus ∧ second = plus ∧ third = minus) ∨
      (first = minus ∧ second = minus ∧ third = plus) ∨
      (first = star ∧ second = star ∧ third = star) := by
  simpa [regroupings] using h

/-- Trees that differ in how sums and products are written. Anywhere in a tree operands may be
    reordered and regrouped, sums may be multiplied out, and parentheses may come and go. -/
inductive Rearranged : Expr → Expr → Prop where
  /-- A number may be written differently and elsewhere. -/
  | number {token other : Token} (hvalue : token.value = other.value) :
      Rearranged (.numeral token) (.numeral other)
  /-- What is in parentheses may be without them. -/
  | enclosed (opening : Token) (inner : Expr) (closing : Token) :
      Rearranged (.group opening inner closing) inner
  /-- Operands may be rearranged. -/
  | operands {left right l r : Expr} {operator other : Token} (hkind : operator.kind = other.kind)
      (hleft : Rearranged left l) (hright : Rearranged right r) :
      Rearranged (.binary left operator right) (.binary l other r)
  /-- The operands of a sum or a product may change places. -/
  | swapped {left right : Expr} {operator : Token}
      (hkind : operator.kind = .plus ∨ operator.kind = .star) :
      Rearranged (.binary left operator right) (.binary right operator left)
  /-- Operands in a row may be grouped from the left or from the right. -/
  | regrouped {a b c : Expr} {first second third : Token}
      (hkinds : (first.kind, second.kind, third.kind) ∈ Kind.regroupings) :
      Rearranged (.binary a first (.binary b second c)) (.binary (.binary a first b) third c)
  /-- A sum or difference may be multiplied out. -/
  | distributed {a b c : Expr} {times sum : Token} (htimes : times.kind = .star)
      (hsum : sum.kind = .plus ∨ sum.kind = .minus) :
      Rearranged (.binary a times (.binary b sum c))
        (.binary (.binary a times b) sum (.binary a times c))
  | symm {one other : Expr} (h : Rearranged one other) : Rearranged other one
  | trans {one between other : Expr} (h : Rearranged one between)
      (hother : Rearranged between other) : Rearranged one other

namespace Rearranged

variable {one other : Expr}

/-- A tree that is rearranged has numbers with values and exact operators if it had them before. -/
theorem undivided_iff (h : Rearranged one other) : one.Undivided ↔ other.Undivided := by
  induction h with
  | number hvalue => rw [Expr.Undivided, Expr.Undivided, hvalue]
  | enclosed opening inner closing => exact Iff.rfl
  | operands hkind _ _ ihleft ihright =>
      rw [Expr.Undivided, Expr.Undivided, ihleft, ihright, hkind]
  | swapped hkind =>
      simp only [Expr.Undivided]
      exact ⟨fun h => ⟨h.2.2, h.2.1, h.1⟩, fun h => ⟨h.2.2, h.2.1, h.1⟩⟩
  | @regrouped a b c first second third hkinds =>
      have hexact : first.kind.isExact = true ∧ second.kind.isExact = true ∧
          third.kind.isExact = true := by
        rcases Kind.regroupings_cases hkinds with h | h | h | h | h
        all_goals
          obtain ⟨hfirst, hsecond, hthird⟩ := h
          rw [hfirst, hsecond, hthird]
          exact ⟨rfl, rfl, rfl⟩
      simp only [Expr.Undivided, hexact, true_and, and_assoc]
  | distributed htimes hsum =>
      simp only [Expr.Undivided]
      constructor
      · rintro ⟨ha, htimes, hb, hsum, hc⟩
        exact ⟨⟨ha, htimes, hb⟩, hsum, ha, htimes, hc⟩
      · rintro ⟨⟨ha, htimes, hb⟩, hsum, -, -, hc⟩
        exact ⟨ha, htimes, hb, hsum, hc⟩
  | symm _ ih => exact ih.symm
  | trans _ _ ih ihother => exact ih.trans ihother

/-- A tree that is rearranged has the same exact value. -/
theorem exact_eq (h : Rearranged one other) (hone : one.Undivided) (hother : other.Undivided) :
    one.exact hone = other.exact hother := by
  induction h with
  | number hvalue => simp only [Expr.exact, hvalue]
  | enclosed opening inner closing => rfl
  | operands hkind _ _ ihleft ihright =>
      rw [Expr.exact, Expr.exact, ihleft hone.1 hother.1, ihright hone.2.2 hother.2.2,
        Operator.exact, Operator.exact, hkind]
  | swapped hkind =>
      rcases hkind with hkind | hkind
      · simp only [Expr.exact, Operator.exact, hkind]
        exact Int.add_comm _ _
      · simp only [Expr.exact, Operator.exact, hkind]
        exact Int.mul_comm _ _
  | @regrouped a b c first second third hkinds =>
      simp only [Expr.exact]
      rcases Kind.regroupings_cases hkinds with h | h | h | h | h
      all_goals
        obtain ⟨hfirst, hsecond, hthird⟩ := h
        simp only [Operator.exact, hfirst, hsecond, hthird]
        ring
  | distributed htimes hsum =>
      simp only [Expr.exact, Operator.exact, htimes]
      rcases hsum with hsum | hsum
      · simp only [hsum]
        exact Int.mul_add _ _ _
      · simp only [hsum]
        exact Int.mul_sub _ _ _
  | symm _ ih => exact (ih hother hone).symm
  | trans hfirst _ ih ihother =>
      have hbetween := (undivided_iff hfirst).mp hone
      exact (ih hone hbetween).trans (ihother hbetween hother)

end Rearranged

/-!
### Evaluation
-/

namespace Expr

/-- A tree all of whose numbers have values and all of whose operators add, subtract or multiply
    never fails: it evaluates to its exact value, reduced once. So two such trees evaluate to the same
    integer exactly if their exact values differ by a multiple of 2^32; and in particular a tree can
    be rearranged as exact sums and products can. -/
theorem evaluate_eq_wrap_exact (e : Expr) (h : e.Undivided) :
    (Node.expr e).evaluate = .ok (Word.wrap (e.exact h)) ∧
      (∀ (other : Expr) (hother : other.Undivided),
        (Node.expr other).evaluate = (Node.expr e).evaluate ↔
          other.exact hother ≡ e.exact h [ZMOD 2 ^ 32]) ∧
      ∀ other : Expr, Rearranged e other →
        other.Undivided ∧ (Node.expr other).evaluate = (Node.expr e).evaluate := by
  have hevaluate : ∀ (other : Expr) (hother : other.Undivided),
      (Node.expr other).evaluate = .ok (Word.wrap (other.exact hother)) := by
    intro other hother
    rw [Node.evaluate_eq_value]
    exact other.value_eq_wrap_exact hother
  refine ⟨hevaluate e h, ?_, ?_⟩
  · intro other hother
    rw [hevaluate e h, hevaluate other hother, Except.ok.injEq, Word.wrap_eq_wrap_iff]
  · intro other hrearranged
    have hother := hrearranged.undivided_iff.mp h
    rw [hevaluate e h, hevaluate other hother, hrearranged.exact_eq h hother]
    exact ⟨hother, rfl⟩

/-- Twice the successor of the greatest word overflows in the sum and in the product; multiplied out
    it overflows elsewhere, and it comes to the same. -/
theorem evaluate_eq_wrap_exact_twice :
    let greatest : Expr := .numeral ⟨.number, 1, "2147483647", some 2147483647, rfl, by decide⟩
    let one : Expr := .numeral ⟨.number, 12, "1", some 1, rfl, by decide⟩
    let two : Expr := .numeral ⟨.number, 15, "2", some 2, rfl, by decide⟩
    let plus : Token := .plain .plus 11 "+"
    let times : Token := .plain .star 14 "*"
    let e : Expr := .binary two times (.binary greatest plus one)
    let other : Expr := .binary (.binary two times greatest) plus (.binary two times one)
    e.Undivided ∧ (Node.expr e).evaluate = .ok 0 ∧ (Node.expr other).evaluate = .ok 0 := by
  intro greatest one two plus times e other
  have h : e.Undivided := ⟨rfl, rfl, rfl, rfl, rfl⟩
  obtain ⟨hvalue, -, hrearranged⟩ := evaluate_eq_wrap_exact e h
  have hzero : Word.wrap (e.exact h) = 0 := rfl
  have hother := (hrearranged other (.distributed rfl (.inl rfl))).2
  rw [hzero] at hvalue
  exact ⟨h, hvalue, hother.trans hvalue⟩

end Expr

end Reckoner
