/-
Module: Reckoner.Proofs.Tree.Requests
Layer: Proofs
Purpose: Requests in any order. A descent answers the requests that a cursor answers, and in the
  same way, also far behind the end of the line. Whatever has been asked before, a request leaves
  the tokens and the counter of groups as they are, never goes back, and takes back no report; past
  the end token every further look finds the end token. This is shown for one request and then
  carried over all that came before it.
Main exports: Descent.perform, Descent.performAll, Descent.after, Descent.Rests, Descent.Obeys,
  Descent.Rests.obeys_perform, Descent.Rests.performAll_toCursor, Descent.obeys_after
-/
import Reckoner.Proofs.Line.Outcome
import Reckoner.Proofs.Tree.Descent

namespace Reckoner

open Cursor (Request Answer)

theorem Lexemes.length_withFinish (lexemes : Lexemes) :
    lexemes.withFinish.length = lexemes.tokens.length + 1 := by
  rw [withFinish, List.length_append, List.length_singleton]

/-- The level of a phrase that can be read on its own. -/
def Cursor.Symbol.rank : Cursor.Symbol → Rank
  | expression | term => .term
  | factor => .factor
  | primary => .primary

theorem Cursor.Symbol.reader_rank (stop : Int) (symbol : Cursor.Symbol) :
    symbol.rank.reader stop nestingLimit = symbol.reader stop := by
  cases symbol <;> rfl

namespace Descent

def perform (d : Descent) : Request → Answer × Descent
  | .peek offset =>
      match d.peek offset with
      | some token => (.token token, d)
      | none => (.outOfTokens, d)
  | .advance => (.token d.current, d.step)
  | .expect kind =>
      let found := d.expect kind
      (.token found.1, found.2)
  | .tokens => (.tokens d.lexemes.withFinish, d)
  | .reports => (.reports d.reports, d)
  | .tree =>
      let whole := d.read .term
      let finish := whole.behind.expect .finish
      (.tree ⟨whole.tree, finish.1, finish.2.reports⟩, finish.2)
  | .phrase symbol =>
      let phrase := d.read symbol.rank
      (.phrase phrase.tree, phrase.behind)

/-- Answers requests one after the other. Each answer comes with the descent behind it. -/
def performAll (d : Descent) : List Request → List (Answer × Descent)
  | [] => []
  | request :: requests =>
      let (answer, next) := d.perform request
      (answer, next) :: next.performAll requests

def after (d : Descent) : List Request → Descent
  | [] => d
  | request :: requests => (d.perform request).2.after requests

/-- Further requests are answered from where the earlier ones have led. -/
theorem performAll_append (d : Descent) (requests others : List Request) :
    d.performAll (requests ++ others) =
      d.performAll requests ++ (d.after requests).performAll others := by
  induction requests generalizing d with
  | nil => rfl
  | cons request requests ih => exact congrArg _ (ih _)

/-!
### Descents and cursors
-/

variable {d next : Descent}

theorem Moves.toCursor_eq {rest : List Token} {made : List Report} (h : d.Moves rest made next)
    (hle : rest.length ≤ d.ahead.length) :
    next.toCursor =
      ⟨d.lexemes, d.place + (d.ahead.length - rest.length), d.reports ++ made⟩ := by
  have hplace : next.place = d.place + (d.ahead.length - rest.length) := by
    have hsum := h.place_eq
    omega
  obtain ⟨⟨lexemes, place, reports⟩, depth⟩ := next
  simp only [Cursor.mk.injEq]
  exact ⟨h.lexemes_eq, hplace, h.reports_eq⟩

theorem read_toCursor {reader : Reader} {passage : Passage d}
    (h : d.Agrees (reader.read d.ahead) passage) :
    d.toCursor.read reader = (passage.tree, passage.behind.toCursor) := by
  rw [h.2.toCursor_eq (reader.shrinks d.ahead), h.1]
  rfl

/-- Asking for a token moves a descent as it moves a cursor. -/
theorem expect_toCursor (d : Descent) (kind : Kind) :
    d.toCursor.expect kind = ((d.expect kind).1, (d.expect kind).2.toCursor) := by
  by_cases hkind : d.current.kind = kind
  · have hfound : Reckoner.expect d.lexemes.stop kind d.ahead = ⟨d.current, d.ahead.tail, []⟩ :=
      if_pos hkind
    simp only [Cursor.expect, expect, hfound, if_pos hkind]
    rfl
  · have hfound : Reckoner.expect d.lexemes.stop kind d.ahead =
        ⟨.missing kind d.current.position, d.ahead,
          [.unexpected d.current.kind.name kind.name]⟩ := if_neg hkind
    simp only [Cursor.expect, expect, hfound, if_neg hkind]
    rfl

/-- Between requests: the tokens are those of the line, and no group is counted. -/
structure Rests (line : String) (d : Descent) : Prop where
  lexemes_eq : d.lexemes = Lexemes.ofLine line
  depth_eq : d.depth = 0

theorem rests_ofLine (line : String) : Rests line (ofLine line) :=
  ⟨rfl, rfl⟩

variable {line : String}

/-- Reading between requests is what the readers do that have room for all groups. -/
theorem Rests.agrees (h : Rests line d) (rank : Rank) :
    d.Agrees ((rank.reader d.lexemes.stop nestingLimit).read d.ahead) (d.read rank) := by
  refine readsAsReaders rank d nestingLimit (by rw [h.depth_eq, Int.zero_add]) ?_
  rw [h.lexemes_eq]
  intro token hmem
  exact ((Lexemes.mem_tokens_ofLine_iff line token).mp hmem).2.2

/-- Asking for a token changes neither the tokens nor the counter. -/
theorem Rests.expect (h : Rests line d) (kind : Kind) : Rests line (d.expect kind).2 := by
  unfold Descent.expect
  split
  · exact ⟨h.lexemes_eq, h.depth_eq⟩
  · exact ⟨h.lexemes_eq, h.depth_eq⟩

/-- A phrase changes neither the tokens nor the counter. -/
theorem Rests.read (h : Rests line d) (rank : Rank) : Rests line (d.read rank).behind := by
  have hmoves := (h.agrees rank).2
  exact ⟨hmoves.lexemes_eq.trans h.lexemes_eq, hmoves.depth_eq.trans h.depth_eq⟩

/-- A request changes neither the tokens nor the counter. -/
theorem Rests.perform (h : Rests line d) (request : Request) :
    Rests line (d.perform request).2 := by
  cases request with
  | peek offset =>
      simp only [Descent.perform]
      split
      · exact h
      · exact h
  | advance => exact ⟨h.lexemes_eq, h.depth_eq⟩
  | expect kind => exact h.expect kind
  | tokens => exact h
  | reports => exact h
  | tree => exact (h.read .term).expect .finish
  | phrase symbol => exact h.read symbol.rank

/-- A descent answers a request as a cursor does. -/
theorem Rests.perform_toCursor (h : Rests line d) (request : Request) :
    d.toCursor.perform request = ((d.perform request).1, (d.perform request).2.toCursor) := by
  cases request with
  | peek offset =>
      cases hpeek : d.peek offset with
      | some token => simp only [Cursor.perform, Descent.perform, hpeek]
      | none => simp only [Cursor.perform, Descent.perform, hpeek]
  | advance => rfl
  | expect kind => simp only [Cursor.perform, Descent.perform, expect_toCursor]
  | tokens => rfl
  | reports => rfl
  | tree =>
      have hread : d.toCursor.read (term d.lexemes.stop nestingLimit) =
          ((d.read .term).tree, (d.read .term).behind.toCursor) := read_toCursor (h.agrees .term)
      simp only [Cursor.perform, Descent.perform, Cursor.readTree, hread, expect_toCursor]
  | phrase symbol =>
      have hread := read_toCursor (h.agrees symbol.rank)
      rw [Cursor.Symbol.reader_rank] at hread
      simp only [Cursor.perform, Descent.perform, hread]

/-!
### What a request can do
-/

/-- Asking for a token takes it and reports nothing, or stays and makes one report. -/
theorem expect_cases (d : Descent) (kind : Kind) :
    ((d.expect kind).2.place = d.place + 1 ∧ (d.expect kind).2.reports = d.reports) ∨
      ((d.expect kind).2.place = d.place ∧
        ∃ made, (d.expect kind).2.reports = d.reports ++ [made]) := by
  unfold Descent.expect
  split
  · exact .inl ⟨rfl, rfl⟩
  · exact .inr ⟨rfl, _, rfl⟩

/-- Asking for a token neither goes back nor takes back a report. -/
theorem advances_expect (d : Descent) (kind : Kind) :
    d.place ≤ (d.expect kind).2.place ∧ d.reports <+: (d.expect kind).2.reports := by
  rcases d.expect_cases kind with ⟨hplace, hreports⟩ | ⟨hplace, made, hreports⟩
  · rw [hplace, hreports]
    exact ⟨Nat.le_succ _, List.prefix_refl _⟩
  · rw [hplace, hreports]
    exact ⟨Nat.le_refl _, List.prefix_append _ _⟩

/-- A phrase neither goes back nor takes back a report, and does not go past the end token, unless it
    starts there. -/
theorem Rests.advances_read (h : Rests line d) (rank : Rank) :
    d.place ≤ (d.read rank).behind.place ∧
      (d.read rank).behind.place ≤ max d.place d.lexemes.tokens.length ∧
      d.reports <+: (d.read rank).behind.reports := by
  have hmoves := (h.agrees rank).2
  have hshrinks := (rank.reader d.lexemes.stop nestingLimit).shrinks d.ahead
  have hplace := hmoves.place_eq
  have hlength : d.ahead.length = d.lexemes.tokens.length - d.place := List.length_drop
  refine ⟨by omega, by omega, ?_⟩
  rw [hmoves.reports_eq]
  exact List.prefix_append _ _

/-- What a request does to a descent among tokens that are given with the end token, and what it is
    answered. -/
structure Obeys (tokens : List Token) (d : Descent) (request : Request) (answer : Answer)
    (next : Descent) : Prop where
  tokens_eq : next.lexemes.withFinish = tokens
  depth_eq : next.depth = 0
  place_le : d.place ≤ next.place
  reports_prefix : d.reports <+: next.reports
  tokens_answer : request = .tokens → answer = .tokens tokens
  reports_answer : request = .reports → answer = .reports d.reports
  expect : ∀ kind, request = .expect kind →
    (next.place = d.place + 1 ∧ next.reports = d.reports) ∨
      (next.place = d.place ∧ ∃ made, next.reports = d.reports ++ [made])
  phrase : ∀ symbol, request = .phrase symbol → next.place ≤ max d.place (tokens.length - 1)
  outOfTokens_iff : answer = .outOfTokens ↔
    ∃ offset, request = .peek offset ∧ (d.place : Int) + offset < -tokens.length

/-- A look is out of tokens exactly if it goes further back than there are tokens. -/
theorem peek_eq_none_iff (c : Cursor) (offset : Int) :
    c.peek offset = none ↔ (c.place : Int) + offset < -c.lexemes.withFinish.length := by
  simp only [Cursor.peek]
  split
  · next hahead =>
      simp only [reduceCtorEq, false_iff]
      omega
  · next hbefore =>
      split
      · next hback =>
          rw [List.getElem?_eq_none_iff]
          omega
      · next hout =>
          simp only [true_iff]
          omega

theorem Rests.advances_perform (h : Rests line d) (request : Request) :
    d.place ≤ (d.perform request).2.place ∧ d.reports <+: (d.perform request).2.reports := by
  cases request with
  | peek offset =>
      simp only [Descent.perform]
      split
      · exact ⟨Nat.le_refl _, List.prefix_refl _⟩
      · exact ⟨Nat.le_refl _, List.prefix_refl _⟩
  | advance => exact ⟨Nat.le_succ _, List.prefix_refl _⟩
  | expect kind => exact d.advances_expect kind
  | tokens => exact ⟨Nat.le_refl _, List.prefix_refl _⟩
  | reports => exact ⟨Nat.le_refl _, List.prefix_refl _⟩
  | tree =>
      obtain ⟨hplace, -, hreports⟩ := h.advances_read .term
      obtain ⟨hfinish, hfound⟩ := (d.read .term).behind.advances_expect .finish
      exact ⟨Nat.le_trans hplace hfinish, hreports.trans hfound⟩
  | phrase symbol =>
      obtain ⟨hplace, -, hreports⟩ := h.advances_read symbol.rank
      exact ⟨hplace, hreports⟩

/-- Only a look can be out of tokens. -/
theorem outOfTokens_iff (d : Descent) (request : Request) :
    (d.perform request).1 = .outOfTokens ↔
      ∃ offset, request = .peek offset ∧
        (d.place : Int) + offset < -d.lexemes.withFinish.length := by
  cases request with
  | peek offset =>
      cases hpeek : d.peek offset with
      | some token =>
          have hnot := mt (peek_eq_none_iff d.toCursor offset).mpr (by simp [hpeek])
          simpa [Descent.perform, hpeek] using hnot
      | none =>
          have hout := (peek_eq_none_iff d.toCursor offset).mp hpeek
          simpa [Descent.perform, hpeek] using hout
  | advance => simp [Descent.perform]
  | expect kind => simp [Descent.perform]
  | tokens => simp [Descent.perform]
  | reports => simp [Descent.perform]
  | tree => simp [Descent.perform]
  | phrase symbol => simp [Descent.perform]

/-- Every request obeys. -/
theorem Rests.obeys_perform (h : Rests line d) (request : Request) :
    Obeys d.lexemes.withFinish d request (d.perform request).1 (d.perform request).2 where
  tokens_eq := by rw [(h.perform request).lexemes_eq, h.lexemes_eq]
  depth_eq := (h.perform request).depth_eq
  place_le := (h.advances_perform request).1
  reports_prefix := (h.advances_perform request).2
  tokens_answer := by
    rintro rfl
    rfl
  reports_answer := by
    rintro rfl
    rfl
  expect := by
    rintro kind rfl
    exact d.expect_cases kind
  phrase := by
    rintro symbol rfl
    rw [Lexemes.length_withFinish, Nat.add_sub_cancel]
    exact (h.advances_read symbol.rank).2.1
  outOfTokens_iff := d.outOfTokens_iff request

/-!
### Any number of requests
-/

/-- The tokens and the counter are the same whatever has been asked. -/
theorem Rests.after (h : Rests line d) (requests : List Request) : Rests line (d.after requests) := by
  induction requests generalizing d with
  | nil => exact h
  | cons request requests ih => exact ih (h.perform request)

/-- However much is asked, it never goes back and takes back no report. -/
theorem Rests.advances_after (h : Rests line d) (requests : List Request) :
    d.place ≤ (d.after requests).place ∧ d.reports <+: (d.after requests).reports := by
  induction requests generalizing d with
  | nil => exact ⟨Nat.le_refl _, List.prefix_refl _⟩
  | cons request requests ih =>
      obtain ⟨hplace, hreports⟩ := h.advances_perform request
      obtain ⟨hplace', hreports'⟩ := ih (h.perform request)
      exact ⟨Nat.le_trans hplace hplace', hreports.trans hreports'⟩

/-- Requests are answered one after the other as a cursor answers them. -/
theorem Rests.performAll_toCursor (h : Rests line d) (requests : List Request) :
    d.toCursor.performAll requests =
      (d.performAll requests).map fun answered => (answered.1, answered.2.toCursor) := by
  induction requests generalizing d with
  | nil => rfl
  | cons request requests ih =>
      have hperform := h.perform_toCursor request
      have hothers := ih (h.perform request)
      simp only [Cursor.performAll, Descent.performAll, hperform, hothers, List.map_cons]

/-- At the end token and behind it a descent stands before the end of the line. -/
theorem Rests.current_eq_finish (h : Rests line d)
    (hplace : d.lexemes.withFinish.length ≤ d.place + 1) :
    d.current = Token.finish line.length := by
  rw [Lexemes.length_withFinish] at hplace
  have hahead : d.ahead = [] := by
    rw [Cursor.ahead, List.drop_eq_nil_iff]
    exact Nat.le_of_succ_le_succ hplace
  rw [Cursor.current, hahead, h.lexemes_eq, Lexemes.stop_ofLine]
  rfl

/-- Requests to a line in any order, also far behind its end. They are answered as a cursor answers
    them, one after the other. The reports start with those of the scan. Whatever has been asked
    before, the tokens are those of the line but for blanks and bad characters, no group is counted,
    and the next request obeys. At the end token or behind it the end of the line comes next, and it
    does so after any further requests. -/
theorem obeys_after (line : String) (earlier : List Request) (request : Request)
    (later : List Request) :
    let tokens := (Token.scan line).filter fun token => !token.kind.isSkipped
    let d := (ofLine line).after earlier
    let (answer, next) := d.perform request
    (Cursor.ofLine line).performAll (earlier ++ request :: later) =
        ((ofLine line).performAll earlier ++ (answer, next) :: next.performAll later).map
          (fun answered => (answered.1, answered.2.toCursor)) ∧
      (ofLine line).reports = (Scanner.ofLine line).tokens.reports ∧
      (ofLine line).reports <+: d.reports ∧
      d.lexemes.withFinish = tokens ∧ d.depth = 0 ∧
      Obeys tokens d request answer next ∧
      (tokens.length ≤ d.place + 1 → (d.after later).current = Token.finish line.length) := by
  intro tokens d
  have hstart := rests_ofLine line
  have hrests : Rests line d := hstart.after earlier
  have htokens : d.lexemes.withFinish = tokens := by
    rw [hrests.lexemes_eq]
    exact Lexemes.withFinish_ofLine line
  have hanswers := hstart.performAll_toCursor (earlier ++ request :: later)
  rw [performAll_append] at hanswers
  have hobeys := hrests.obeys_perform request
  rw [htokens] at hobeys
  refine ⟨hanswers, rfl, (hstart.advances_after earlier).2, htokens, hrests.depth_eq, hobeys, ?_⟩
  intro hplace
  have hlater := hrests.after later
  have hmore := (hrests.advances_after later).1
  refine hlater.current_eq_finish ?_
  rw [hlater.lexemes_eq, ← hrests.lexemes_eq, htokens]
  omega

end Descent

end Reckoner
