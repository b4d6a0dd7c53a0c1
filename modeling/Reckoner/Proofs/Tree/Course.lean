/-
Module: Reckoner.Proofs.Tree.Course
Layer: Proofs
Purpose: What reading can do, whatever the tokens are. `Course` lists the ways in which a phrase comes
  about, one rule for each: a number that is there or missing, a group that is read or skipped, and
  operands that are joined by operators. Every reader follows these rules on all tokens, well formed
  or not, so what the rules preserve holds of everything that is read, and no proof has to open a
  reader again. The rules do not say how far a row of operands goes; that no operator is left behind
  it is a lemma of its own.
Main exports: Rank, Phrase.enclosed, Phrase.join, Course, clear_rest_term, course_term,
  Course.rest_suffix
-/
import Reckoner.Proofs.Grammar.Reading

namespace Reckoner

open Grammar

/-- The levels of phrases. -/
inductive Rank where
  | primary
  | factor
  | term
deriving DecidableEq, Repr

namespace Rank

/-- The operators that join the operands of a phrase. -/
def joins : Rank → Kind → Bool
  | primary => fun _ => false
  | factor => Kind.isMultiplicative
  | term => Kind.isAdditive

/-- The level of the operands of a phrase. A primary is not made of operands. -/
def operand : Rank → Rank
  | primary | factor => primary
  | term => factor

/-- What joins operands is one of the four operators. -/
theorem isOperator_of_joins {rank : Rank} {kind : Kind} (h : rank.joins kind = true) :
    kind.isOperator = true := by
  cases rank with
  | primary => exact absurd h (by simp [joins])
  | factor => exact Bool.or_eq_true_iff.mpr (.inr h)
  | term => exact Bool.or_eq_true_iff.mpr (.inl h)

end Rank

namespace Phrase

/-- The group around a phrase, given its opening parenthesis. The closing one is what comes next, or
    it is missing. -/
def enclosed (stop : Int) (opening : Token) (inner : Phrase) : Phrase :=
  let closing := expect stop .closing inner.rest
  ⟨.group opening inner.tree closing.token, closing.rest, inner.reports ++ closing.reports⟩

/-- Two operands with an operator between them. -/
def join (left : Phrase) (operator : Token) (right : Phrase) : Phrase :=
  ⟨.binary left.tree operator right.tree, right.rest, left.reports ++ right.reports⟩

end Phrase

/-- The ways in which a phrase of a level is read from the front of some tokens, where `room` groups
    may still be opened. -/
inductive Course (stop : Int) : Rank → Nat → List Token → Phrase → Prop where
  | number {room : Nat} {tokens : List Token} (hclear : Clear (fun kind => kind = .opening) tokens) :
      Course stop .primary room tokens (readNumeral stop tokens)
  | skipped {opening : Token} {behind : List Token} (hopening : opening.kind = .opening) :
      Course stop .primary 0 (opening :: behind) (skipGroup stop opening behind)
  | group {room : Nat} {opening : Token} {behind : List Token} {inner : Phrase}
      (hopening : opening.kind = .opening) (hinner : Course stop .term room behind inner)
      (hclear : Clear Kind.isOperator inner.rest) :
      Course stop .primary (room + 1) (opening :: behind) (inner.enclosed stop opening)
  | operand {rank : Rank} {room : Nat} {tokens : List Token} {phrase : Phrase}
      (h : Course stop rank.operand room tokens phrase) : Course stop rank room tokens phrase
  | join {rank : Rank} {room : Nat} {tokens behind : List Token} {left right : Phrase}
      {operator : Token} (hleft : Course stop rank room tokens left)
      (hrest : left.rest = operator :: behind) (hjoins : rank.joins operator.kind = true)
      (hright : Course stop rank.operand room behind right) :
      Course stop rank room tokens (left.join operator right)

/-!
### Rows of operands
-/

section Chain

variable {joins continues : Kind → Bool} {operand : Reader}

/-- A row is read to its end: no operator of the row is left behind it, and nothing that would
    continue its last operand. -/
theorem clear_rest_chainFrom (h : ∀ tokens, Clear continues (operand.read tokens).rest)
    (left : Expr) {tokens : List Token} (hclear : Clear continues tokens) :
    Clear (fun kind => joins kind || continues kind)
      (Reader.chainFrom joins operand left tokens).rest := by
  fun_induction Reader.chainFrom joins operand left tokens with
  | case1 left => exact clear_nil _
  | case2 left operator behind hoperator right ih => exact ih (h behind)
  | case3 left operator behind hoperator =>
      rw [Bool.not_eq_true] at hoperator
      rw [clear_cons] at hclear ⊢
      exact Bool.or_eq_false_iff.mpr ⟨hoperator, hclear⟩

/-- A row is read to its end, from its first operand on. -/
theorem clear_rest_chain (joins : Kind → Bool)
    (h : ∀ tokens, Clear continues (operand.read tokens).rest) (tokens : List Token) :
    Clear (fun kind => joins kind || continues kind) ((operand.chain joins).read tokens).rest :=
  clear_rest_chainFrom h _ (h tokens)

theorem clear_rest_term (stop : Int) (room : Nat) (tokens : List Token) :
    Clear Kind.isOperator ((term stop room).read tokens).rest := by
  have hprimary : ∀ tokens, Clear (fun _ => false) ((primary stop room).read tokens).rest :=
    fun _ _ _ => rfl
  have hfactor := clear_rest_chain Kind.isMultiplicative hprimary
  have hterm := clear_rest_chain Kind.isAdditive hfactor tokens
  simp only [Bool.or_false] at hterm
  exact hterm

variable {stop : Int} {rank : Rank} {room : Nat}

/-- A row that has been begun by the rules is continued by them. -/
theorem course_chainFrom (h : ∀ tokens, Course stop rank.operand room tokens (operand.read tokens))
    {tokens : List Token} (begun : Phrase) (hbegun : Course stop rank room tokens begun) :
    Course stop rank room tokens
      ((Reader.chainFrom rank.joins operand begun.tree begun.rest).after begun.reports) := by
  obtain ⟨left, ahead, reports⟩ := begun
  dsimp only
  -- The induction follows the tokens ahead; what has been read so far grows with every operand.
  fun_induction Reader.chainFrom rank.joins operand left ahead generalizing reports with
  | case1 left => simpa [Phrase.after] using hbegun
  | case2 left operator behind hoperator right ih =>
      have hnext := hbegun.join rfl hoperator (h behind)
      have hwhole := ih (reports ++ right.reports) hnext
      simpa [Phrase.after, List.append_assoc] using hwhole
  | case3 left operator behind hoperator => simpa [Phrase.after] using hbegun

/-- A row is read by the rules if its operands are. -/
theorem course_chain (h : ∀ tokens, Course stop rank.operand room tokens (operand.read tokens))
    (tokens : List Token) :
    Course stop rank room tokens ((operand.chain rank.joins).read tokens) :=
  course_chainFrom h (operand.read tokens) (h tokens).operand

end Chain

/-!
### Primaries and terms
-/

theorem course_term_of_primary {stop : Int} {room : Nat}
    (h : ∀ tokens, Course stop .primary room tokens ((primary stop room).read tokens))
    (tokens : List Token) : Course stop .term room tokens ((term stop room).read tokens) := by
  have hfactor : ∀ tokens, Course stop .factor room tokens ((factor stop room).read tokens) :=
    course_chain h
  exact course_chain hfactor tokens

/-- Primaries are read by the rules, whatever room there is for groups. -/
theorem course_primary (stop : Int) (room : Nat) (tokens : List Token) :
    Course stop .primary room tokens ((primary stop room).read tokens) := by
  induction room generalizing tokens with
  | zero =>
      by_cases hclear : Clear (fun kind => kind = .opening) tokens
      · rw [read_primary_of_clear stop 0 hclear]
        exact .number hclear
      · obtain ⟨opening, behind, rfl, hopening⟩ := exists_opening_of_not_clear hclear
        rw [read_primary_zero_of_opening stop hopening behind]
        exact .skipped hopening
  | succ room ih =>
      by_cases hclear : Clear (fun kind => kind = .opening) tokens
      · rw [read_primary_of_clear stop (room + 1) hclear]
        exact .number hclear
      · obtain ⟨opening, behind, rfl, hopening⟩ := exists_opening_of_not_clear hclear
        rw [read_primary_of_opening stop room hopening behind]
        have hinner := course_term_of_primary ih behind
        exact .group hopening hinner (clear_rest_term stop room behind)

/-- Terms are read by the rules, whatever room there is for groups. -/
theorem course_term (stop : Int) (room : Nat) (tokens : List Token) :
    Course stop .term room tokens ((term stop room).read tokens) :=
  course_term_of_primary (course_primary stop room) tokens

/-!
### What is left behind a phrase
-/

/-- Asking for a token leaves an end of the tokens. -/
theorem rest_expect_suffix (stop : Int) (kind : Kind) (tokens : List Token) :
    (expect stop kind tokens).rest <:+ tokens := by
  unfold expect
  dsimp only
  split
  · exact List.tail_suffix tokens
  · exact List.suffix_refl tokens

/-- Dropping the content of a group leaves an end of the tokens. -/
theorem dropGroup_suffix (depth : Nat) (tokens : List Token) : dropGroup depth tokens <:+ tokens := by
  fun_induction dropGroup depth tokens with
  | case1 => exact List.suffix_refl _
  | case2 token tokens depth hkind ih => exact ih.trans (List.suffix_cons token tokens)
  | case3 token tokens hkind => exact List.suffix_refl _
  | case4 token tokens hkind depth ih => exact ih.trans (List.suffix_cons token tokens)
  | case5 token tokens depth _ _ _ ih => exact ih.trans (List.suffix_cons token tokens)

theorem Course.rest_suffix {stop : Int} {rank : Rank} {room : Nat} {tokens : List Token}
    {phrase : Phrase} (h : Course stop rank room tokens phrase) : phrase.rest <:+ tokens := by
  induction h with
  | number hclear => exact rest_expect_suffix _ _ _
  | @skipped opening behind hopening =>
      have hdrop := (rest_expect_suffix stop .closing _).trans (dropGroup_suffix 0 behind)
      exact hdrop.trans (List.suffix_cons opening behind)
  | @group room opening behind inner hopening hinner hclear ih =>
      have hclosing := (rest_expect_suffix stop .closing inner.rest).trans ih
      exact hclosing.trans (List.suffix_cons opening behind)
  | operand h ih => exact ih
  | @join rank room tokens behind left right operator hleft hrest hjoins hright ihleft ihright =>
      rw [hrest] at ihleft
      exact ihright.trans ((List.suffix_cons operator behind).trans ihleft)

end Reckoner
