/-
Module: Reckoner.Proofs.Grammar.Reading
Layer: Proofs
Purpose: Reading is exact. `Reads` says that a reader reports nothing on what a kind of derivation
  derives, as long as no operator follows that would continue it, and that it reports something on
  everything else. It is proved for rows of operands in general, given that it holds of the
  operands, and from there for terms by induction on the room for groups.
Main exports: Grammar.Clear, Grammar.Reads, Grammar.reads_chain, Grammar.reads_primary_succ,
  Grammar.reads_term
-/
import Reckoner.Proofs.Expr.Shape
import Reckoner.Proofs.Grammar
import Reckoner.Tree

namespace Reckoner

namespace Grammar

/-- No token of the kinds `p` comes next. -/
def Clear (p : Kind → Bool) (tokens : List Token) : Prop :=
  ∀ token ∈ tokens.head?, p token.kind = false

@[simp] theorem clear_nil (p : Kind → Bool) : Clear p [] := by
  simp [Clear]

@[simp] theorem clear_cons (p : Kind → Bool) (token : Token) (tokens : List Token) :
    Clear p (token :: tokens) ↔ p token.kind = false := by
  simp [Clear]

/-- A reader reads derivations of one kind, exactly: where one is, it builds its tree and reports
    nothing, and where it reports nothing one is. `continues` are the kinds of the operators that
    the reader would go on with. -/
structure Reads {α : Type} (reader : Reader) (yield : α → List Token) (tree : α → Expr)
    (continues : Kind → Bool) : Prop where
  complete : ∀ (derivation : α) (rest : List Token), Clear continues rest →
    reader.read (yield derivation ++ rest) = ⟨tree derivation, rest, []⟩
  sound : ∀ (tokens : List Token), (reader.read tokens).reports = [] →
    ∃ derivation rest, tokens = yield derivation ++ rest ∧ Clear continues rest

/-!
### Single tokens
-/

theorem expect_of_kind {stop : Int} {kind : Kind} {token : Token} (h : token.kind = kind)
    (tokens : List Token) : expect stop kind (token :: tokens) = ⟨token, tokens, []⟩ := by
  simp [expect, upcoming, h]

/-- A token other than the end token is found without a report only if it is there. -/
theorem exists_of_reports_expect {stop : Int} {kind : Kind} {tokens : List Token}
    (hkind : kind ≠ .finish) (h : (expect stop kind tokens).reports = []) :
    ∃ token behind, tokens = token :: behind ∧ token.kind = kind := by
  cases tokens with
  | nil =>
      have hend : (upcoming stop []).kind ≠ kind := Ne.symm hkind
      rw [expect, if_neg hend] at h
      exact absurd h (by simp)
  | cons token behind =>
      by_cases hfound : token.kind = kind
      · exact ⟨token, behind, rfl, hfound⟩
      · have hother : (upcoming stop (token :: behind)).kind ≠ kind := hfound
        rw [expect, if_neg hother] at h
        exact absurd h (by simp)

/-- The end is found without a report exactly if there are no more tokens, provided that the end
    token is not among them. -/
theorem reports_expect_finish_eq_nil_iff {stop : Int} {tokens : List Token}
    (hfinish : ∀ token ∈ tokens, token.kind ≠ .finish) :
    (expect stop .finish tokens).reports = [] ↔ tokens = [] := by
  cases tokens with
  | nil => simp [expect, upcoming, Token.finish, Token.plain]
  | cons token behind =>
      have hother : token.kind ≠ .finish := hfinish token (by simp)
      simp [expect, upcoming, hother]

/-!
### Rows of operands
-/

section Chain

variable {α : Type} {joins continues : Kind → Bool} {operand : Reader} {yield : α → List Token}
  {tree : α → Expr}

/-- Behind an operand comes an operator of the row or the end of the row, and neither continues the
    operand. -/
theorem clear_others (yield : α → List Token)
    (hjoins : ∀ kind, joins kind = true → continues kind = false)
    (others : List (Terminal joins × α)) {rest : List Token}
    (hrest : Clear (fun kind => joins kind || continues kind) rest) :
    Clear continues ((others.flatMap fun other => other.1.token :: yield other.2) ++ rest) := by
  cases others with
  | nil =>
      intro token htoken
      have hboth := hrest token (by simpa using htoken)
      exact (Bool.or_eq_false_iff.mp hboth).2
  | cons next others => simp [hjoins _ next.1.fits]

/-- A row is continued by the operators and operands that are there, and by nothing else. -/
theorem chainFrom_complete (h : Reads operand yield tree continues)
    (hjoins : ∀ kind, joins kind = true → continues kind = false)
    (others : List (Terminal joins × α)) (left : Expr) (rest : List Token)
    (hrest : Clear (fun kind => joins kind || continues kind) rest) :
    Reader.chainFrom joins operand left
        ((others.flatMap fun other => other.1.token :: yield other.2) ++ rest) =
      ⟨others.foldl (fun left other => .binary left other.1.token (tree other.2)) left, rest,
        []⟩ := by
  induction others generalizing left with
  | nil =>
      cases rest with
      | nil => simp [Reader.chainFrom]
      | cons token rest =>
          have hboth := (clear_cons _ token rest).mp hrest
          have hstop : joins token.kind = false := (Bool.or_eq_false_iff.mp hboth).1
          simp [Reader.chainFrom, hstop]
  | cons other others ih =>
      obtain ⟨operator, right⟩ := other
      have hright := h.complete right _ (clear_others yield hjoins others hrest)
      rw [List.flatMap_cons, List.cons_append, List.cons_append, Reader.chainFrom,
        if_pos operator.fits, List.append_assoc, hright]
      simp only [List.foldl_cons]
      rw [ih]
      rfl

/-- A row that is continued without a report is continued by operators and operands. -/
theorem chainFrom_sound (h : Reads operand yield tree continues) (left : Expr)
    (tokens : List Token) (hclear : Clear continues tokens)
    (hreports : (Reader.chainFrom joins operand left tokens).reports = []) :
    ∃ (others : List (Terminal joins × α)) (rest : List Token),
      tokens = (others.flatMap fun other => other.1.token :: yield other.2) ++ rest ∧
        Clear (fun kind => joins kind || continues kind) rest := by
  fun_induction Reader.chainFrom joins operand left tokens with
  | case1 left => exact ⟨[], [], by simp, by simp⟩
  | case2 left operator behind hoperator right ih =>
      simp only [Phrase.reports_after, List.append_eq_nil_iff] at hreports
      obtain ⟨derivation, next, rfl, hnext⟩ := h.sound behind hreports.1
      have hright : right.rest = next := by
        simp only [right, h.complete derivation next hnext]
      rw [hright] at ih hreports
      obtain ⟨others, rest, rfl, hrest⟩ := ih hnext hreports.2
      exact ⟨(⟨operator, hoperator⟩, derivation) :: others, rest, by simp, hrest⟩
  | case3 left operator behind hoperator =>
      refine ⟨[], operator :: behind, by simp, ?_⟩
      rw [Bool.not_eq_true] at hoperator
      rw [clear_cons] at hclear ⊢
      rw [hoperator, hclear]
      rfl

/-- A row of operands is read exactly if its operands are, and no operator of the row continues an
    operand. -/
theorem reads_chain (joins : Kind → Bool) (h : Reads operand yield tree continues)
    (hjoins : ∀ kind, joins kind = true → continues kind = false) :
    Reads (operand.chain joins) (Chain.yield yield : Chain joins α → List Token)
      (Chain.tree tree) (fun kind => joins kind || continues kind) where
  complete := by
    rintro ⟨first, others⟩ rest hrest
    have hfirst := h.complete first _ (clear_others yield hjoins others hrest)
    have hothers := chainFrom_complete h hjoins others (tree first) rest hrest
    simp only [Reader.chain, Chain.yield, List.append_assoc, hfirst, hothers]
    rfl
  sound := by
    intro tokens hreports
    simp only [Reader.chain, Phrase.reports_after, List.append_eq_nil_iff] at hreports
    obtain ⟨first, next, rfl, hnext⟩ := h.sound tokens hreports.1
    rw [h.complete first next hnext] at hreports
    obtain ⟨others, rest, rfl, hrest⟩ := chainFrom_sound h _ _ hnext hreports.2
    exact ⟨⟨first, others⟩, rest, by rw [Chain.yield, List.append_assoc], hrest⟩

end Chain

/-!
### Primaries and terms
-/

theorem readNumeral_of_kind {stop : Int} {token : Token} (h : token.kind = .number)
    (behind : List Token) : readNumeral stop (token :: behind) = ⟨.numeral token, behind, []⟩ := by
  simp [readNumeral, expect_of_kind h]

/-- Where no group starts, a primary is read as a number, whatever room there is. -/
theorem read_primary_of_clear (stop : Int) (room : Nat) {tokens : List Token}
    (h : Clear (fun kind => kind = .opening) tokens) :
    (primary stop room).read tokens = readNumeral stop tokens := by
  cases tokens with
  | nil => cases room <;> rfl
  | cons token behind =>
      have hkind : token.kind ≠ .opening := by simpa using h
      cases room <;> simp [primary, hkind]

theorem read_primary_of_number (stop : Int) (room : Nat) {token : Token} (h : token.kind = .number)
    (behind : List Token) :
    (primary stop room).read (token :: behind) = ⟨.numeral token, behind, []⟩ := by
  have hclear : Clear (fun kind => kind = .opening) (token :: behind) := by simp [h]
  rw [read_primary_of_clear stop room hclear, readNumeral_of_kind h]

/-- Where no group starts, a primary is read without a report only if it is a number. -/
theorem exists_number_of_clear {stop : Int} {room : Nat} {tokens : List Token}
    (hclear : Clear (fun kind => kind = .opening) tokens)
    (hreports : ((primary stop room).read tokens).reports = []) :
    ∃ token behind, tokens = token :: behind ∧ token.kind = .number := by
  rw [read_primary_of_clear stop room hclear] at hreports
  exact exists_of_reports_expect (by decide) hreports

/-- Where it is not so that no group starts, one does. -/
theorem exists_opening_of_not_clear {tokens : List Token}
    (h : ¬ Clear (fun kind => kind = .opening) tokens) :
    ∃ opening behind, tokens = opening :: behind ∧ opening.kind = .opening := by
  cases tokens with
  | nil => simp at h
  | cons opening behind => exact ⟨opening, behind, rfl, by simpa using h⟩

/-- A group for which there is room is read as one. -/
theorem read_primary_of_opening (stop : Int) (room : Nat) {opening : Token}
    (h : opening.kind = .opening) (behind : List Token) :
    (primary stop (room + 1)).read (opening :: behind) =
      readGroup stop (term stop room) opening behind := by
  simp only [primary, if_pos h]
  rfl

theorem read_primary_zero_of_opening (stop : Int) {opening : Token}
    (h : opening.kind = .opening) (behind : List Token) :
    (primary stop 0).read (opening :: behind) = skipGroup stop opening behind := by
  simp only [primary, if_pos h]

/-- A group for which there is no room is reported. -/
theorem reports_primary_zero_of_opening (stop : Int) {opening : Token}
    (h : opening.kind = .opening) (behind : List Token) :
    ((primary stop 0).read (opening :: behind)).reports ≠ [] := by
  simp [read_primary_zero_of_opening stop h, skipGroup]

/-- Without room for groups, primaries are numbers. -/
theorem reads_primary_zero (stop : Int) :
    Reads (primary stop 0) (Primary.yield (Nested.yield 0)) (Primary.tree (Nested.tree 0))
      (fun _ => false) where
  complete := by
    intro derivation rest _
    cases derivation with
    | number token isNumber => exact read_primary_of_number stop 0 isNumber rest
    | group opening content closing isOpening isClosing => exact content.elim
  sound := by
    intro tokens hreports
    by_cases hclear : Clear (fun kind => kind = .opening) tokens
    · obtain ⟨token, behind, rfl, isNumber⟩ := exists_number_of_clear hclear hreports
      exact ⟨.number token isNumber, behind, rfl, fun _ _ => rfl⟩
    · obtain ⟨opening, behind, rfl, isOpening⟩ := exists_opening_of_not_clear hclear
      exact absurd hreports (reports_primary_zero_of_opening stop isOpening behind)

/-- With room for a group, a group is read exactly if its content is. -/
theorem reads_primary_succ {stop : Int} {room : Nat}
    (h : Reads (term stop room) (Derivation.yield : Derivation room → List Token) Derivation.tree
      Kind.isOperator) :
    Reads (primary stop (room + 1)) (Primary.yield (Nested.yield (room + 1)))
      (Primary.tree (Nested.tree (room + 1))) (fun _ => false) where
  complete := by
    intro derivation rest _
    cases derivation with
    | number token isNumber => exact read_primary_of_number stop (room + 1) isNumber rest
    | group opening content closing isOpening isClosing =>
        have hclear : Clear Kind.isOperator (closing :: rest) := by
          rw [clear_cons, isClosing]
          rfl
        have hcontent : (term stop room).read (Derivation.yield content ++ closing :: rest) =
            ⟨Derivation.tree content, closing :: rest, []⟩ := h.complete content _ hclear
        have hgroup : Primary.yield (Nested.yield (room + 1))
              (.group opening content closing isOpening isClosing) ++ rest =
            opening :: (Derivation.yield content ++ closing :: rest) := by
          simp [Primary.yield, Nested.yield, Derivation.yield]
        rw [hgroup, read_primary_of_opening stop room isOpening, readGroup, hcontent]
        simp only [expect_of_kind isClosing]
        rfl
  sound := by
    intro tokens hreports
    by_cases hclear : Clear (fun kind => kind = .opening) tokens
    · obtain ⟨token, behind, rfl, isNumber⟩ := exists_number_of_clear hclear hreports
      exact ⟨.number token isNumber, behind, rfl, fun _ _ => rfl⟩
    · obtain ⟨opening, behind, rfl, isOpening⟩ := exists_opening_of_not_clear hclear
      rw [read_primary_of_opening stop room isOpening, readGroup] at hreports
      simp only [List.append_eq_nil_iff] at hreports
      obtain ⟨content, next, rfl, hnext⟩ := h.sound behind hreports.1
      rw [h.complete content next hnext] at hreports
      obtain ⟨closing, rest, rfl, isClosing⟩ := exists_of_reports_expect (by decide) hreports.2
      refine ⟨.group opening content closing isOpening isClosing, rest, ?_, fun _ _ => rfl⟩
      simp [Primary.yield, Nested.yield, Derivation.yield]

/-- Terms are read exactly if primaries are: no operator continues a primary, and none that joins
    factors continues a factor. -/
theorem reads_term_of_primary {stop : Int} {room : Nat}
    (h : Reads (primary stop room) (Primary.yield (Nested.yield room))
      (Primary.tree (Nested.tree room)) (fun _ => false)) :
    Reads (term stop room) (Derivation.yield : Derivation room → List Token) Derivation.tree
      Kind.isOperator := by
  have hfactor := reads_chain Kind.isMultiplicative h (fun _ _ => rfl)
  have hterm := reads_chain Kind.isAdditive hfactor (by
    intro kind hkind
    cases kind <;> simp_all [Kind.isAdditive, Kind.isMultiplicative])
  simp only [Bool.or_false] at hterm
  exact hterm

/-- Terms are read exactly, whatever room there is for groups. -/
theorem reads_term (stop : Int) (room : Nat) :
    Reads (term stop room) (Derivation.yield : Derivation room → List Token) Derivation.tree
      Kind.isOperator := by
  induction room with
  | zero => exact reads_term_of_primary (reads_primary_zero stop)
  | succ room ih => exact reads_term_of_primary (reads_primary_succ ih)

end Grammar

end Reckoner
