/-
Module: Reckoner.Proofs.Tree.Replace
Layer: Proofs
Purpose: Trees in the place of numbers. A tree of the grammar that is not binary can stand wherever a
  number does, and what is around it does not tell the two apart: neither the shape of the grammar nor
  the value depends on more of the tree than its value. Conversely, wherever the leaves of such a tree
  are found in a row among the leaves of another, they are those of a subtree, for which a number can
  stand.
Main exports: Expr.replace, Expr.leaves_replace_of_eq, Expr.grammatical_replace, Expr.value_replace,
  Expr.exists_replace
-/
import Reckoner.Proofs.Expr.Evaluation
import Reckoner.Proofs.Tree.Silent

namespace Reckoner.Expr

/-- The tree with another tree in the place of a number. -/
def replace : Expr → Token → Expr → Expr
  | numeral token, number, other => if token = number then other else numeral token
  | group opening inner closing, number, other =>
      group opening (inner.replace number other) closing
  | binary left operator right, number, other =>
      binary (left.replace number other) operator (right.replace number other)

section

variable {number : Token} {other : Expr}

/-- The leaves of the other tree are in the place of the number. -/
theorem leaves_replace (hnumber : number.kind = .number) {e : Expr} (h : e.Grammatical) :
    (e.replace number other).leaves =
      e.leaves.flatMap fun token => if token = number then other.leaves else [token] := by
  induction e with
  | numeral token =>
      by_cases htoken : token = number
      · simp [replace, leaves, htoken]
      · simp [replace, leaves, htoken]
  | group opening inner closing ih =>
      obtain ⟨hopening, hinner, hclosing⟩ := h
      have hfirst : opening ≠ number := by
        rintro rfl
        exact absurd (hopening.symm.trans hnumber) (by decide)
      have hlast : closing ≠ number := by
        rintro rfl
        exact absurd (hclosing.symm.trans hnumber) (by decide)
      simp [replace, leaves, ih hinner, hfirst, hlast]
  | binary left operator right ihl ihr =>
      have hoperator : operator ≠ number := by
        rintro rfl
        exact Kind.ne_of_isOperator (isOperator_of_grammatical h) rfl hnumber
      simp [replace, leaves, ihl h.1, ihr h.2.1, hoperator]

/-- The leaves of the other tree are in the place of the number, if it is there only once. -/
theorem leaves_replace_of_eq (hnumber : number.kind = .number) {e : Expr} (h : e.Grammatical)
    {before behind : List Token} (hleaves : e.leaves = before ++ number :: behind)
    (hbefore : number ∉ before) (hbehind : number ∉ behind) :
    (e.replace number other).leaves = before ++ other.leaves ++ behind := by
  have hkeep : ∀ tokens : List Token, number ∉ tokens →
      tokens.flatMap (fun token => if token = number then other.leaves else [token]) = tokens := by
    intro tokens hnone
    induction tokens with
    | nil => rfl
    | cons token tokens ih =>
        rw [List.mem_cons, not_or] at hnone
        rw [List.flatMap_cons, ih hnone.2, if_neg (Ne.symm hnone.1), List.singleton_append]
  rw [leaves_replace hnumber h, hleaves, List.flatMap_append, List.flatMap_cons, if_pos rfl,
    hkeep before hbefore, hkeep behind hbehind, List.append_assoc]

section

variable (hother : other.kind ≠ .binary)
include hother

theorem kind_replace_eq_binary_iff (e : Expr) :
    (e.replace number other).kind = .binary ↔ e.kind = .binary := by
  cases e with
  | numeral token =>
      rw [replace]
      split
      · exact iff_of_false hother (by simp [kind])
      · rfl
  | group opening inner closing => rfl
  | binary left operator right => rfl

/-- A sum stays a sum, and nothing else becomes one. -/
theorem isSum_replace_iff (e : Expr) : (e.replace number other).IsSum ↔ e.IsSum := by
  cases e with
  | numeral token =>
      rw [replace]
      split
      · exact iff_of_false (not_isSum_of_kind_ne hother) id
      · rfl
  | group opening inner closing => rfl
  | binary left operator right => rfl

/-- A tree of the grammar that is not binary can stand in the place of a number. -/
theorem grammatical_replace (hgrammatical : other.Grammatical) {e : Expr} (h : e.Grammatical) :
    (e.replace number other).Grammatical := by
  induction e with
  | numeral token =>
      rw [replace]
      split
      · exact hgrammatical
      · exact h
  | group opening inner closing ih => exact ⟨h.1, ih h.2.1, h.2.2⟩
  | binary left operator right ihl ihr =>
      refine ⟨ihl h.1, ihr h.2.1, ?_⟩
      rw [isSum_replace_iff hother, isSum_replace_iff hother, ne_eq,
        kind_replace_eq_binary_iff hother]
      exact h.2.2

end

/-- The value of a tree does not change if a tree of the same value is in the place of a number. -/
theorem value_replace (hvalue : other.value = (numeral number).value) (e : Expr) :
    (e.replace number other).value = e.value := by
  induction e with
  | numeral token =>
      rw [replace]
      split
      · next htoken => rw [hvalue, htoken]
      · rfl
  | group opening inner closing ih => exact ih
  | binary left operator right ihl ihr => rw [replace, value, value, ihl, ihr]

/-- If a tree can be evaluated with another tree in the place of a number, it can be with the number,
    provided that the number has a value. -/
theorem evaluable_of_replace (hvalue : number.value.isSome = true) {e : Expr}
    (h : (e.replace number other).Evaluable) : e.Evaluable := by
  induction e with
  | numeral token =>
      rw [replace] at h
      split at h
      · next htoken => exact htoken ▸ hvalue
      · exact h
  | group opening inner closing ih => exact ih h
  | binary left operator right ihl ihr => exact ⟨ihl h.1, h.2.1, ihr h.2.2⟩

/-- Where the leaves of a tree that is not binary are found in a row among the leaves of another tree,
    a number can stand for them, and the tree that has it there has the one tree in the other. -/
theorem exists_replace {e : Expr} (h : e.Grammatical) (hnesting : e.nesting ≤ 128)
    (hgrammatical : other.Grammatical) (hother : other.kind ≠ .binary)
    (hnumber : number.kind = .number) {before behind : List Token}
    (hleaves : e.leaves = before ++ other.leaves ++ behind) (hbefore : number ∉ before)
    (hbehind : number ∉ behind) :
    ∃ whole : Expr, whole.Grammatical ∧ whole.leaves = before ++ number :: behind ∧
      e = whole.replace number other := by
  -- The run over the leaves goes over the number as it does over the leaves of the tree.
  have hrun : Sweep.State.start.run? (e.leaves.map Token.kind) = some .final :=
    (Sweep.run?_eq_final_iff e.leaves).mpr ⟨e, h, hnesting, rfl⟩
  rw [hleaves, List.append_assoc, List.map_append, List.map_append, Sweep.State.run?_append,
    Option.bind_eq_some_iff] at hrun
  obtain ⟨between, hfront, hrun⟩ := hrun
  rw [Sweep.State.run?_append, Option.bind_eq_some_iff] at hrun
  obtain ⟨within, hinner, hback⟩ := hrun
  obtain ⟨hmode, rfl⟩ := Sweep.State.eq_of_run?_leaves hgrammatical hinner
  have hstep : between.step? number.kind = some ⟨.operator, between.groups⟩ := by
    obtain ⟨mode, groups⟩ := between
    obtain rfl : mode = .operand := hmode
    rw [hnumber]
    exact Sweep.State.step?_number
  have hwhole : Sweep.State.start.run? ((before ++ number :: behind).map Token.kind) =
      some .final := by
    simp [hfront, hstep, hback]
  obtain ⟨whole, hshape, -, hothers⟩ := (Sweep.run?_eq_final_iff _).mp hwhole
  refine ⟨whole, hshape, hothers, ?_⟩
  apply eq_of_leaves_eq h (grammatical_replace hother hgrammatical hshape)
  rw [hleaves, leaves_replace_of_eq hnumber hshape hothers hbefore hbehind]

end

end Reckoner.Expr
