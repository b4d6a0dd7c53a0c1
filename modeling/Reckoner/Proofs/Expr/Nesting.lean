/-
Module: Reckoner.Proofs.Expr.Nesting
Layer: Proofs
Purpose: How deep groups are nested, read off the tokens. The groups around a token are those that
  were opened before it and not closed again; for the leaves of a tree of the grammar this count
  bounds exactly what the nesting of the tree bounds.
Main exports: openGroups, NestedWithin, Expr.nestedWithin_leaves_iff
-/
import Reckoner.Proofs.Expr.Shape

namespace Reckoner

/-- How many more groups some tokens open than close. -/
def openGroups (tokens : List Token) : Int :=
  (tokens.countP fun token => token.kind = .opening : Nat) -
    (tokens.countP fun token => token.kind = .closing : Nat)

/-- Every opening parenthesis lies inside fewer than `limit` groups. -/
def NestedWithin (limit : Int) (tokens : List Token) : Prop :=
  ∀ before opening behind, tokens = before ++ opening :: behind → opening.kind = .opening →
    openGroups before < limit

@[simp] theorem openGroups_nil : openGroups [] = 0 := rfl

@[simp] theorem openGroups_append (tokens others : List Token) :
    openGroups (tokens ++ others) = openGroups tokens + openGroups others := by
  simp only [openGroups, List.countP_append]
  omega

theorem openGroups_cons (token : Token) (tokens : List Token) :
    openGroups (token :: tokens) = openGroups [token] + openGroups tokens :=
  openGroups_append [token] tokens

theorem openGroups_of_opening {token : Token} (h : token.kind = .opening) :
    openGroups [token] = 1 := by
  simp [openGroups, h]

theorem openGroups_of_closing {token : Token} (h : token.kind = .closing) :
    openGroups [token] = -1 := by
  simp [openGroups, h]

/-- A token other than a parenthesis neither opens nor closes a group. -/
theorem openGroups_of_ne {token : Token} (hopening : token.kind ≠ .opening)
    (hclosing : token.kind ≠ .closing) : openGroups [token] = 0 := by
  simp [openGroups, hopening, hclosing]

theorem nestedWithin_nil (limit : Int) : NestedWithin limit [] := by
  intro before opening behind heq
  exact absurd heq (by simp)

/-- A token in front counts for the groups behind it. -/
theorem nestedWithin_cons (limit : Int) (token : Token) (tokens : List Token) :
    NestedWithin limit (token :: tokens) ↔
      (token.kind = .opening → 0 < limit) ∧ NestedWithin (limit - openGroups [token]) tokens := by
  constructor
  · intro h
    refine ⟨fun hkind => h [] token tokens rfl hkind, ?_⟩
    intro before opening behind heq hkind
    have hopen := h (token :: before) opening behind (by rw [heq, List.cons_append]) hkind
    rw [openGroups_cons] at hopen
    omega
  · rintro ⟨hfirst, hothers⟩ before opening behind heq hkind
    cases before with
    | nil =>
        obtain ⟨rfl, -⟩ := List.cons.inj heq
        exact hfirst hkind
    | cons first before =>
        obtain ⟨rfl, htokens⟩ := List.cons.inj heq
        have hopen := hothers before opening behind htokens hkind
        rw [openGroups_cons]
        omega

/-- What stands in front counts for the groups behind it. -/
theorem nestedWithin_append (limit : Int) (tokens others : List Token) :
    NestedWithin limit (tokens ++ others) ↔
      NestedWithin limit tokens ∧ NestedWithin (limit - openGroups tokens) others := by
  induction tokens generalizing limit with
  | nil => simp [nestedWithin_nil]
  | cons token tokens ih =>
      have hsum : limit - openGroups [token] - openGroups tokens =
          limit - openGroups (token :: tokens) := by
        rw [openGroups_cons token tokens]
        omega
      rw [List.cons_append, nestedWithin_cons, nestedWithin_cons, ih, hsum, and_assoc]

theorem openGroups_of_isOperator {token : Token} (h : token.kind.isOperator = true) :
    openGroups [token] = 0 :=
  openGroups_of_ne (Kind.ne_of_isOperator h rfl) (Kind.ne_of_isOperator h rfl)

namespace Expr

/-- Every group of a tree of the grammar is closed. -/
theorem openGroups_leaves {e : Expr} (h : e.Grammatical) : openGroups e.leaves = 0 := by
  induction e with
  | numeral token =>
      have hkind : token.kind = .number := h
      exact openGroups_of_ne (by simp [hkind]) (by simp [hkind])
  | group opening inner closing ih =>
      obtain ⟨hopening, hinner, hclosing⟩ := h
      rw [leaves, openGroups_cons, openGroups_append, ih hinner, openGroups_of_opening hopening,
        openGroups_of_closing hclosing]
      rfl
  | binary left operator right ihl ihr =>
      have hoperator := openGroups_of_isOperator (isOperator_of_grammatical h)
      rw [leaves, openGroups_append, openGroups_cons, ihl h.1, ihr h.2.1, hoperator]
      rfl

/-- Groups lie inside fewer than `limit` others exactly if the tree is nested at most `limit` deep.
    -/
theorem nestedWithin_leaves_iff {e : Expr} (h : e.Grammatical) (limit : Nat) :
    NestedWithin limit e.leaves ↔ e.nesting ≤ limit := by
  induction e generalizing limit with
  | numeral token =>
      have hkind : token.kind ≠ .opening := by
        have : token.kind = .number := h
        simp [this]
      simp [leaves, nestedWithin_cons, nestedWithin_nil, hkind, nesting]
  | group opening inner closing ih =>
      obtain ⟨hopening, hinner, hclosing⟩ := h
      have hlast : closing.kind ≠ .opening := by simp [hclosing]
      rw [leaves, nestedWithin_cons, nestedWithin_append, openGroups_of_opening hopening, nesting]
      cases limit with
      | zero => simp [hopening]
      | succ limit =>
          have hlimit : ((limit + 1 : Nat) : Int) - 1 = (limit : Nat) := by omega
          rw [hlimit, ih hinner limit]
          simp [nestedWithin_cons, nestedWithin_nil, hlast]
  | binary left operator right ihl ihr =>
      have hfour := isOperator_of_grammatical h
      have hopening : operator.kind ≠ .opening := Kind.ne_of_isOperator hfour rfl
      rw [leaves, nestedWithin_append, nestedWithin_cons, openGroups_leaves h.1,
        openGroups_of_isOperator hfour, Int.sub_zero, Int.sub_zero, ihl h.1, ihr h.2.1, nesting]
      simp only [hopening, false_implies, true_and]
      exact Nat.max_le.symm

end Expr

end Reckoner
