/-
Module: Reckoner.Proofs.Tree.Matching
Layer: Proofs
Purpose: Where a group ends. The closing parenthesis that matches an opening one is the first token
  behind it with which as many groups have been closed as opened, the group itself included. Dropping
  the content of a group goes to this token, or to the end of the line if there is none. What lies
  between two matching parentheses is balanced, and behind balanced tokens the next closing
  parenthesis is the matching one.
Main exports: matching?, matching?_eq_some_iff, exists_closing_of_matching?, dropGroup_of_matching?,
  dropGroup_of_matching?_eq_none, matching?_append_of_some, Balanced, matching?_of_balanced
-/
import Reckoner.Proofs.Expr.Nesting
import Reckoner.Tree

namespace Reckoner

/-- The index of the token that closes a group, among the tokens behind its opening parenthesis: the
    first at which the balance, counted from this parenthesis, is back at zero. -/
def matching? (tokens : List Token) : Option Nat :=
  (List.range tokens.length).find? fun i => 1 + openGroups (tokens.take (i + 1)) = 0

theorem matching?_eq_some_iff {tokens : List Token} {i : Nat} :
    matching? tokens = some i ↔
      i < tokens.length ∧ openGroups (tokens.take (i + 1)) = -1 ∧
        ∀ j < i, openGroups (tokens.take (j + 1)) ≠ -1 := by
  have hback : ∀ balance : Int, 1 + balance = 0 ↔ balance = -1 := by omega
  simp only [matching?, List.find?_range_eq_some, List.mem_range, decide_eq_true_eq,
    Bool.not_eq_true', decide_eq_false_iff_not, hback]
  exact ⟨fun h => ⟨h.2.1, h.1, h.2.2⟩, fun h => ⟨h.2.1, h.1, h.2.2⟩⟩

theorem matching?_eq_none_iff {tokens : List Token} :
    matching? tokens = none ↔ ∀ i < tokens.length, openGroups (tokens.take (i + 1)) ≠ -1 := by
  have hback : ∀ balance : Int, 1 + balance = 0 ↔ balance = -1 := by omega
  simp [matching?, hback]

/-!
### The balance step by step
-/

/-- A token closes at most one group, and only a closing parenthesis closes any. -/
theorem openGroups_singleton (token : Token) :
    0 ≤ openGroups [token] ∨ (token.kind = .closing ∧ openGroups [token] = -1) := by
  by_cases hclosing : token.kind = .closing
  · exact .inr ⟨hclosing, openGroups_of_closing hclosing⟩
  · by_cases hopening : token.kind = .opening
    · exact .inl (by simp [openGroups_of_opening hopening])
    · exact .inl (by simp [openGroups_of_ne hopening hclosing])

/-- Going over one more token adds what it opens or closes. -/
theorem openGroups_take_succ {tokens : List Token} {i : Nat} (h : i < tokens.length) :
    openGroups (tokens.take (i + 1)) = openGroups (tokens.take i) + openGroups [tokens[i]] := by
  rw [List.take_succ_eq_append_getElem h, openGroups_append]

/-- As long as the balance has not been at -1, it has not been below zero: it goes down one by one. -/
theorem openGroups_take_nonneg {tokens : List Token} {limit : Nat} (hlimit : limit ≤ tokens.length)
    (h : ∀ j < limit, openGroups (tokens.take (j + 1)) ≠ -1) {i : Nat} (hi : i ≤ limit) :
    0 ≤ openGroups (tokens.take i) := by
  induction i with
  | zero => simp
  | succ i ih =>
      have hbefore := ih (Nat.le_of_succ_le hi)
      have hinside : i < tokens.length := Nat.lt_of_lt_of_le hi hlimit
      have hstep := openGroups_take_succ hinside
      have hnot := h i hi
      rcases openGroups_singleton tokens[i] with hup | ⟨-, hdown⟩
      · omega
      · omega

/-- The token at the matching index is a closing parenthesis, and what lies before it is balanced. -/
theorem exists_closing_of_matching? {tokens : List Token} {i : Nat} (h : matching? tokens = some i) :
    ∃ closing, tokens[i]? = some closing ∧ closing.kind = .closing ∧
      openGroups (tokens.take i) = 0 := by
  obtain ⟨hi, hback, hfirst⟩ := matching?_eq_some_iff.mp h
  have hbefore := openGroups_take_nonneg (Nat.le_of_lt hi) hfirst (Nat.le_refl i)
  have hstep := openGroups_take_succ hi
  refine ⟨tokens[i], List.getElem?_eq_getElem hi, ?_⟩
  rcases openGroups_singleton tokens[i] with hup | ⟨hkind, hdown⟩
  · omega
  · exact ⟨hkind, by omega⟩

/-!
### Dropping the content of a group
-/

/-- Dropping goes over one token, unless it closes the group. -/
theorem dropGroup_cons {depth next : Nat} {token : Token}
    (h : (next : Int) = depth + openGroups [token]) (tokens : List Token) :
    dropGroup depth (token :: tokens) = dropGroup next tokens := by
  cases hkind : token.kind with
  | opening =>
      rw [openGroups_of_opening hkind] at h
      obtain rfl : next = depth + 1 := by omega
      simp only [dropGroup, hkind]
  | closing =>
      rw [openGroups_of_closing hkind] at h
      obtain rfl : depth = next + 1 := by omega
      simp only [dropGroup, hkind]
  | _ =>
      rw [openGroups_of_ne (by simp [hkind]) (by simp [hkind])] at h
      obtain rfl : next = depth := by omega
      simp only [dropGroup, hkind]

/-- Dropping goes over tokens as long as the balance stays above that of the closing parenthesis. -/
theorem dropGroup_append {inner : List Token} {depth next : Nat}
    (hopen : ∀ i, i ≤ inner.length → 0 ≤ depth + openGroups (inner.take i))
    (hnext : (next : Int) = depth + openGroups inner) (rest : List Token) :
    dropGroup depth (inner ++ rest) = dropGroup next rest := by
  induction inner generalizing depth with
  | nil =>
      obtain rfl : next = depth := by
        rw [openGroups_nil] at hnext
        omega
      rfl
  | cons token inner ih =>
      have hfirst : 0 ≤ depth + openGroups [token] := by simpa using hopen 1 (by simp)
      obtain ⟨between, hbetween⟩ := Int.eq_ofNat_of_zero_le hfirst
      rw [List.cons_append, dropGroup_cons hbetween.symm]
      apply ih
      · intro i hi
        have hopen := hopen (i + 1) (by simpa using hi)
        rw [List.take_succ_cons, openGroups_cons] at hopen
        omega
      · rw [openGroups_cons] at hnext
        omega

/-- Dropping the content of a group goes to the matching parenthesis. -/
theorem dropGroup_of_matching? {tokens : List Token} {i : Nat} (h : matching? tokens = some i) :
    dropGroup 0 tokens = tokens.drop i := by
  obtain ⟨hi, -, hfirst⟩ := matching?_eq_some_iff.mp h
  obtain ⟨closing, hclosing, hkind, hinner⟩ := exists_closing_of_matching? h
  have hopen : ∀ j, j ≤ (tokens.take i).length →
      0 ≤ ((0 : Nat) : Int) + openGroups ((tokens.take i).take j) := by
    intro j hj
    have hj : j ≤ i := Nat.le_trans hj (List.length_take_le _ _)
    rw [List.take_take, Nat.min_eq_left hj]
    simpa using openGroups_take_nonneg (Nat.le_of_lt hi) hfirst hj
  have hdrop : tokens.drop i = closing :: tokens.drop (i + 1) := by
    rw [List.drop_eq_getElem_cons hi]
    rw [List.getElem?_eq_getElem hi, Option.some.injEq] at hclosing
    rw [hclosing]
  calc dropGroup 0 tokens = dropGroup 0 (tokens.take i ++ tokens.drop i) := by
        rw [List.take_append_drop]
    _ = dropGroup 0 (tokens.drop i) := dropGroup_append hopen (by simp [hinner]) _
    _ = tokens.drop i := by
        rw [hdrop]
        simp only [dropGroup, hkind]

/-- Without a matching parenthesis everything is dropped. -/
theorem dropGroup_of_matching?_eq_none {tokens : List Token} (h : matching? tokens = none) :
    dropGroup 0 tokens = [] := by
  have hnonneg : ∀ i, i ≤ tokens.length → 0 ≤ openGroups (tokens.take i) := fun i hi =>
    openGroups_take_nonneg (Nat.le_refl _) (matching?_eq_none_iff.mp h) hi
  have hlast := hnonneg tokens.length (Nat.le_refl _)
  rw [List.take_length] at hlast
  obtain ⟨left, hleft⟩ := Int.eq_ofNat_of_zero_le hlast
  have hdrop : dropGroup 0 (tokens ++ []) = dropGroup left [] :=
    dropGroup_append (by simpa using hnonneg) (by simpa using hleft.symm) []
  rw [List.append_nil] at hdrop
  rw [hdrop, dropGroup]

/-!
### Tokens in front and behind
-/

/-- A group that is closed is closed there, whatever follows. -/
theorem matching?_append_of_some {tokens : List Token} {i : Nat} (h : matching? tokens = some i)
    (rest : List Token) : matching? (tokens ++ rest) = some i := by
  obtain ⟨hi, hback, hfirst⟩ := matching?_eq_some_iff.mp h
  rw [matching?_eq_some_iff]
  refine ⟨by rw [List.length_append]; omega, ?_, ?_⟩
  · rw [List.take_append_of_le_length (Nat.succ_le_of_lt hi)]
    exact hback
  · intro j hj
    rw [List.take_append_of_le_length (Nat.succ_le_of_lt (Nat.lt_trans hj hi))]
    exact hfirst j hj

/-- A group that is not closed by some tokens is not closed among them when more follow. -/
theorem length_le_of_matching?_append {tokens rest : List Token} {i : Nat}
    (h : matching? tokens = none) (happend : matching? (tokens ++ rest) = some i) :
    tokens.length ≤ i := by
  apply Nat.le_of_not_lt
  intro hi
  have hback := (matching?_eq_some_iff.mp happend).2.1
  rw [List.take_append_of_le_length (Nat.succ_le_of_lt hi)] at hback
  exact matching?_eq_none_iff.mp h i hi hback

/-- Tokens that close all groups that they open, and no others. -/
structure Balanced (tokens : List Token) : Prop where
  nonneg : ∀ front, front <+: tokens → 0 ≤ openGroups front
  closed : openGroups tokens = 0

/-- Behind balanced tokens the next closing parenthesis is the matching one. -/
theorem matching?_of_balanced {inner : List Token} (h : Balanced inner) {closing : Token}
    (hclosing : closing.kind = .closing) (rest : List Token) :
    matching? (inner ++ closing :: rest) = some inner.length := by
  rw [matching?_eq_some_iff]
  refine ⟨by simp, ?_, ?_⟩
  · rw [List.take_length_add_append, openGroups_append, h.closed]
    simpa using openGroups_of_closing hclosing
  · intro j hj hback
    have hinside : j + 1 ≤ inner.length := hj
    have hnonneg := h.nonneg _ (inner.take_prefix (j + 1))
    rw [List.take_append_of_le_length hinside] at hback
    omega

end Reckoner
