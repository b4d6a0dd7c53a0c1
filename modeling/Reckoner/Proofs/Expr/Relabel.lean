/-
Module: Reckoner.Proofs.Expr.Relabel
Layer: Proofs
Purpose: Trees with other tokens at their leaves. Changing every token of a tree by a function that
  keeps its kind keeps the shape of the tree, and tokens that agree with the leaves of a tree up to
  such a function can be put in their place. So where the tokens of a tree stand and what values
  they carry is independent of its shape.
Main exports: Token.relocated, Expr.map, Expr.leaves_map, Expr.grammatical_map_iff,
  Expr.exists_leaves_eq
-/
import Reckoner.Proofs.Expr.Shape

namespace Reckoner

namespace Token

/-- The same token at the place that takes the place of its own. -/
def relocated (place : Int → Int) (token : Token) : Token :=
  { token with position := place token.position }

@[simp] theorem kind_relocated (place : Int → Int) (token : Token) :
    (token.relocated place).kind = token.kind := rfl

@[simp] theorem value_relocated (place : Int → Int) (token : Token) :
    (token.relocated place).value = token.value := rfl

@[simp] theorem text_relocated (place : Int → Int) (token : Token) :
    (token.relocated place).text = token.text := rfl

end Token

namespace Expr

def map (f : Token → Token) : Expr → Expr
  | numeral token => numeral (f token)
  | group opening inner closing => group (f opening) (inner.map f) (f closing)
  | binary left operator right => binary (left.map f) (f operator) (right.map f)

@[simp] theorem kind_map (f : Token → Token) (e : Expr) : (e.map f).kind = e.kind := by
  cases e <;> rfl

@[simp] theorem leaves_map (f : Token → Token) (e : Expr) : (e.map f).leaves = e.leaves.map f := by
  induction e with
  | numeral token => rfl
  | group opening inner closing ih => simp [map, leaves, ih]
  | binary left operator right ihl ihr => simp [map, leaves, ihl, ihr]

@[simp] theorem nesting_map (f : Token → Token) (e : Expr) : (e.map f).nesting = e.nesting := by
  induction e with
  | numeral token => rfl
  | group opening inner closing ih => simp [map, nesting, ih]
  | binary left operator right ihl ihr => simp [map, nesting, ihl, ihr]

section

variable {f : Token → Token} (hkind : ∀ token, (f token).kind = token.kind)
include hkind

/-- A sum stays a sum, and nothing else becomes one. -/
theorem isSum_map_iff (e : Expr) : (e.map f).IsSum ↔ e.IsSum := by
  cases e with
  | numeral token => rfl
  | group opening inner closing => rfl
  | binary left operator right => simp [map, IsSum, hkind]

/-- A tree keeps the shape of the grammar, and no other tree gets it. -/
theorem grammatical_map_iff (e : Expr) : (e.map f).Grammatical ↔ e.Grammatical := by
  induction e with
  | numeral token => simp [map, Grammatical, hkind]
  | group opening inner closing ih => simp [map, Grammatical, hkind, ih]
  | binary left operator right ihl ihr =>
      simp [map, Grammatical, hkind, ihl, ihr, isSum_map_iff hkind]

end

/-- Tokens that agree with the leaves of a tree are the leaves of a tree that agrees with it. -/
theorem exists_leaves_eq {f : Token → Token} {e : Expr} {tokens : List Token}
    (h : tokens.map f = e.leaves.map f) :
    ∃ other : Expr, other.leaves = tokens ∧ other.map f = e.map f := by
  induction e generalizing tokens with
  | numeral token =>
      obtain ⟨first, rfl, hfirst⟩ := List.map_eq_singleton_iff.mp h
      exact ⟨numeral first, rfl, by rw [map, map, hfirst]⟩
  | group opening inner closing ih =>
      simp only [leaves, List.map_cons, List.map_append, List.map_nil] at h
      obtain ⟨first, others, rfl, hfirst, hothers⟩ := List.map_eq_cons_iff.mp h
      obtain ⟨content, behind, rfl, hcontent, hbehind⟩ := List.map_eq_append_iff.mp hothers
      obtain ⟨last, rfl, hlast⟩ := List.map_eq_singleton_iff.mp hbehind
      obtain ⟨other, rfl, hother⟩ := ih hcontent
      exact ⟨group first other last, rfl, by rw [map, map, hfirst, hother, hlast]⟩
  | binary left operator right ihl ihr =>
      simp only [leaves, List.map_cons, List.map_append] at h
      obtain ⟨front, behind, rfl, hfront, hbehind⟩ := List.map_eq_append_iff.mp h
      obtain ⟨middle, others, rfl, hmiddle, hothers⟩ := List.map_eq_cons_iff.mp hbehind
      obtain ⟨one, rfl, hone⟩ := ihl hfront
      obtain ⟨other, rfl, hother⟩ := ihr hothers
      exact ⟨binary one middle other, rfl, by rw [map, map, hone, hmiddle, hother]⟩

end Expr

end Reckoner
