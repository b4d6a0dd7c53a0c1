/-
Module: Reckoner.Proofs.Tree.Descent
Layer: Proofs
Purpose: Reading phrases by moving over the tokens. A descent stands before one of the tokens of a
  line, or any number of places past the last one, and counts the groups that it has entered;
  reading a phrase changes its place, its counter and its reports step by step, and loops where the
  readers of phrases call themselves. Every phrase ends, because nothing goes on without taking one
  of the tokens that are left. The readers hand back the same trees, and what they leave is what
  lies behind the place to which the descent goes; the counter is back where it was, whatever
  happens on the way.
Main exports: Descent, Descent.expect, Descent.skip, Descent.read, Descent.extend, Descent.Moves,
  Descent.moves_skip, Descent.Agrees, Descent.readsAsReaders
-/
import Reckoner.Proofs.Tree.Course
import Reckoner.Tree.Cursor

namespace Reckoner

open Grammar

/-- A cursor that counts the groups that it is in. -/
structure Descent extends Cursor where
  depth : Int

namespace Descent

/-- The descent before the first token of a line. -/
def ofLine (line : String) : Descent :=
  { Cursor.ofLine line with depth := 0 }

/-- The number of tokens that are left, the end token aside. -/
def left (d : Descent) : Nat :=
  d.lexemes.tokens.length - d.place

/-!
### Single tokens
-/

def step (d : Descent) : Descent :=
  { d with place := d.place + 1 }

def report (d : Descent) (made : Report) : Descent :=
  { d with reports := d.reports ++ [made] }

/-- Takes the token before which the descent stands if it is of the kind asked for. Otherwise an
    empty token stands in for it, and a report is made. -/
def expect (d : Descent) (kind : Kind) : Token × Descent :=
  if d.current.kind = kind then (d.current, d.step)
  else (Token.missing kind d.current.position, d.report (.unexpected d.current.kind.name kind.name))

/-- Going one place further takes a token, unless the descent stands at the end. -/
theorem left_step_lt {d : Descent} (h : d.current.kind ≠ .finish) : d.step.left < d.left := by
  have hahead : d.ahead ≠ [] := by
    intro hnil
    rw [Cursor.current, hnil] at h
    exact h rfl
  have hplace : d.place < d.lexemes.tokens.length := by
    rw [Cursor.ahead, ne_eq, List.drop_eq_nil_iff] at hahead
    exact Nat.lt_of_not_le hahead
  simp only [left, step]
  omega

theorem left_step_le (d : Descent) : d.step.left ≤ d.left := by
  simp only [left, step]
  omega

theorem left_expect_le (d : Descent) (kind : Kind) : (d.expect kind).2.left ≤ d.left := by
  unfold expect
  split
  · exact d.left_step_le
  · exact Nat.le_refl _

/-!
### Groups past the limit
-/

/-- Goes to the parenthesis that brings the balance to zero, or else to the end of the line. -/
def skip (balance : Int) (d : Descent) : Descent :=
  if d.current.kind = .finish then d
  else if d.current.kind = .opening then skip (balance + 1) d.step
  else if d.current.kind = .closing then
    if balance - 1 = 0 then d else skip (balance - 1) d.step
  else skip balance d.step
termination_by d.left
decreasing_by
  all_goals exact left_step_lt (by assumption)

theorem left_skip_le (balance : Int) (d : Descent) : (d.skip balance).left ≤ d.left := by
  fun_induction skip balance d with
  | case1 => exact Nat.le_refl _
  | case2 balance d _ _ ih => exact Nat.le_trans ih d.left_step_le
  | case3 => exact Nat.le_refl _
  | case4 balance d _ _ _ _ ih => exact Nat.le_trans ih d.left_step_le
  | case5 balance d _ _ _ ih => exact Nat.le_trans ih d.left_step_le

/-- Reads the group before which the descent stands without its content. -/
def skipGroup (d : Descent) : Expr × Descent :=
  let inside := d.step.report (.tooDeep d.current.position nestingLimit)
  let content := Expr.numeral (Token.missing .number inside.current.position)
  let closing := (inside.skip 1).expect .closing
  (.group d.current content closing.1, closing.2)

theorem left_skipGroup_le (d : Descent) : d.skipGroup.2.left ≤ d.left :=
  Nat.le_trans (left_expect_le _ _) (Nat.le_trans (left_skip_le _ _) d.left_step_le)

/-!
### Phrases
-/

/-- A phrase that has been read from a descent, and the descent behind it. No more tokens are left
    there than before. -/
structure Passage (d : Descent) where
  tree : Expr
  behind : Descent
  left_le : behind.left ≤ d.left

/-- Behind a phrase there is no more to do than in front of it. -/
theorem Passage.effort_le {d : Descent} (p : Passage d) (levels : Nat) :
    6 * p.behind.left + levels ≤ 6 * d.left + levels :=
  Nat.add_le_add_right (Nat.mul_le_mul_left 6 p.left_le) levels

end Descent

/-- How many levels of phrases are below a level. -/
def Rank.level : Rank → Nat
  | primary => 0
  | factor => 1
  | term => 2

theorem Rank.kind_ne_finish_of_joins {rank : Rank} {kind : Kind} (h : rank.joins kind = true) :
    kind ≠ .finish := by
  rintro rfl
  cases rank <;> exact absurd h (by decide)

namespace Descent

mutual

/-- Reads a phrase of a level. The groups that are entered are counted, and none is entered while 128
    are counted. -/
def read (rank : Rank) (d : Descent) : Passage d :=
  match rank with
  | .primary =>
      if hopening : d.current.kind = .opening then
        if nestingLimit ≤ d.depth then
          ⟨d.skipGroup.1, d.skipGroup.2, d.left_skipGroup_le⟩
        else
          let inner := read .term { d.step with depth := d.step.depth + 1 }
          let closing := { inner.behind with depth := inner.behind.depth - 1 }.expect .closing
          ⟨.group d.current inner.tree closing.1, closing.2, by
            have hclosing := left_expect_le { inner.behind with depth := inner.behind.depth - 1 }
              .closing
            exact Nat.le_trans hclosing (Nat.le_trans inner.left_le d.left_step_le)⟩
      else
        let number := d.expect .number
        ⟨.numeral number.1, number.2, d.left_expect_le .number⟩
  | .factor =>
      let first := read .primary d
      let whole := extend .factor first.tree first.behind
      ⟨whole.tree, whole.behind, Nat.le_trans whole.left_le first.left_le⟩
  | .term =>
      let first := read .factor d
      let whole := extend .term first.tree first.behind
      ⟨whole.tree, whole.behind, Nat.le_trans whole.left_le first.left_le⟩
termination_by 6 * d.left + (2 * rank.level + 1)
decreasing_by
  · have hlt : d.step.left < d.left := left_step_lt (by rw [hopening]; decide)
    have hleft : Descent.left { d.step with depth := d.step.depth + 1 } = d.step.left := rfl
    simp only [hleft, Rank.level]
    omega
  · simp only [Rank.level]
    omega
  · exact Nat.lt_of_le_of_lt (Passage.effort_le _ _) (Nat.lt_succ_self _)
  · simp only [Rank.level]
    omega
  · exact Nat.lt_of_le_of_lt (Passage.effort_le _ _) (Nat.lt_succ_self _)

/-- Goes on with a phrase whose tree so far is `e`, as long as an operator of its level comes next.
    -/
def extend (rank : Rank) (e : Expr) (d : Descent) : Passage d :=
  if _ : rank.joins d.current.kind = true then
    let right := read rank.operand d.step
    let whole := extend rank (.binary e d.current right.tree) right.behind
    ⟨whole.tree, whole.behind,
      Nat.le_trans whole.left_le (Nat.le_trans right.left_le d.left_step_le)⟩
  else
    ⟨e, d, Nat.le_refl _⟩
termination_by 6 * d.left + 2 * rank.level
decreasing_by
  · have hlt := left_step_lt (Rank.kind_ne_finish_of_joins (by assumption))
    have hlevel : rank.operand.level ≤ rank.level := by cases rank <;> decide
    omega
  · have hlt := left_step_lt (Rank.kind_ne_finish_of_joins (by assumption))
    exact Nat.lt_of_le_of_lt (Passage.effort_le _ _) (by omega)

end

/-!
### Moving over the tokens
-/

/-- The descent `next` is behind `d`: in front of it are the tokens `rest`, the reports `made` have
    been added, and the counter is what it was. -/
structure Moves (d : Descent) (rest : List Token) (made : List Report) (next : Descent) : Prop where
  lexemes_eq : next.lexemes = d.lexemes
  depth_eq : next.depth = d.depth
  ahead_eq : next.ahead = rest
  place_eq : next.place + rest.length = d.place + d.ahead.length
  reports_eq : next.reports = d.reports ++ made

theorem Moves.refl (d : Descent) : d.Moves d.ahead [] d :=
  ⟨rfl, rfl, rfl, rfl, (List.append_nil _).symm⟩

theorem Moves.trans {d between next : Descent} {front rest : List Token} {made others : List Report}
    (h : d.Moves front made between) (hnext : between.Moves rest others next) :
    d.Moves rest (made ++ others) next where
  lexemes_eq := hnext.lexemes_eq.trans h.lexemes_eq
  depth_eq := hnext.depth_eq.trans h.depth_eq
  ahead_eq := hnext.ahead_eq
  place_eq := by rw [hnext.place_eq, h.ahead_eq, h.place_eq]
  reports_eq := by rw [hnext.reports_eq, h.reports_eq, List.append_assoc]

variable {d : Descent} {token : Token} {tokens : List Token}

/-- Where a token comes next, the descent stands before it. -/
theorem current_eq (h : d.ahead = token :: tokens) : d.current = token := by
  rw [Cursor.current, h]
  rfl

theorem moves_step (h : d.ahead = token :: tokens) : d.Moves tokens [] d.step where
  lexemes_eq := rfl
  depth_eq := rfl
  ahead_eq := by
    have htail : d.step.ahead = d.ahead.tail := by simp [Cursor.ahead, step]
    rw [htail, h, List.tail_cons]
  place_eq := by
    rw [h, List.length_cons]
    simp only [step]
    omega
  reports_eq := (List.append_nil _).symm

/-- Making a report leaves the descent where it is. -/
theorem moves_report (d : Descent) (made : Report) : d.Moves d.ahead [made] (d.report made) :=
  ⟨rfl, rfl, rfl, rfl, rfl⟩

/-- A token that is not the end of the line is one of those ahead. -/
theorem exists_ahead_of_kind {kind : Kind} (h : d.current.kind = kind) (hkind : kind ≠ .finish) :
    ∃ token tokens, d.ahead = token :: tokens ∧ d.current = token := by
  cases hahead : d.ahead with
  | nil =>
      rw [Cursor.current, hahead] at h
      exact absurd h hkind.symm
  | cons token tokens => exact ⟨token, tokens, rfl, current_eq hahead⟩

/-- Taking a token or reporting that it is missing is what the readers do, except at the end. -/
theorem moves_expect {kind : Kind} (hkind : kind ≠ .finish) (d : Descent) :
    let found := Reckoner.expect d.lexemes.stop kind d.ahead
    (d.expect kind).1 = found.token ∧ d.Moves found.rest found.reports (d.expect kind).2 := by
  intro found
  by_cases hfound : d.current.kind = kind
  · obtain ⟨token, tokens, hahead, hcurrent⟩ := exists_ahead_of_kind hfound hkind
    have htoken : found = ⟨token, tokens, []⟩ := by
      rw [hcurrent] at hfound
      simp only [found, hahead, expect_of_kind hfound]
    rw [expect, if_pos hfound, htoken]
    exact ⟨hcurrent, moves_step hahead⟩
  · have hmissing : found = ⟨.missing kind d.current.position, d.ahead,
        [.unexpected d.current.kind.name kind.name]⟩ := if_neg hfound
    rw [expect, if_neg hfound, hmissing]
    exact ⟨rfl, d.moves_report _⟩

/-- Skipping goes to where the readers drop the tokens of a group, given that the end token is not
    among those ahead. The balance is one more than the groups that are open inside the group. -/
theorem moves_skip (depth : Nat) (d : Descent) (hfinish : ∀ token ∈ d.ahead, token.kind ≠ .finish) :
    d.Moves (dropGroup depth d.ahead) [] (d.skip (depth + 1)) := by
  generalize hahead : d.ahead = tokens at hfinish
  induction tokens generalizing depth d with
  | nil =>
      have hend : d.current.kind = .finish := by
        rw [Cursor.current, hahead]
        rfl
      rw [skip, if_pos hend]
      simpa [dropGroup, hahead] using Moves.refl d
  | cons token tokens ih =>
      have hstep := moves_step hahead
      have hcurrent := current_eq hahead
      have hkind : token.kind ≠ .finish := hfinish token List.mem_cons_self
      have hothers : ∀ token ∈ tokens, token.kind ≠ .finish := fun token hmem =>
        hfinish token (.tail _ hmem)
      rw [skip, hcurrent, if_neg hkind]
      by_cases hopening : token.kind = .opening
      · have hrest := hstep.trans (ih (depth + 1) d.step hstep.ahead_eq hothers)
        rw [if_pos hopening]
        simpa [dropGroup, hopening] using hrest
      · rw [if_neg hopening]
        by_cases hclosing : token.kind = .closing
        · rw [if_pos hclosing]
          cases depth with
          | zero =>
              rw [if_pos (by decide)]
              simpa [dropGroup, hclosing, hahead] using Moves.refl d
          | succ depth =>
              have hrest := hstep.trans (ih depth d.step hstep.ahead_eq hothers)
              rw [if_neg (by omega)]
              simpa [dropGroup, hclosing] using hrest
        · have hdrop : dropGroup depth (token :: tokens) = dropGroup depth tokens := by
            simp [dropGroup, hclosing]
          rw [if_neg hclosing, hdrop]
          exact hstep.trans (ih depth d.step hstep.ahead_eq hothers)

/-- The token before which a descent stands that has moved. -/
theorem Moves.current_eq {next : Descent} {rest : List Token} {made : List Report}
    (h : d.Moves rest made next) : next.current = upcoming d.lexemes.stop rest := by
  rw [Cursor.current, h.ahead_eq, h.lexemes_eq]

theorem Moves.expect {next : Descent} {rest : List Token} {made : List Report}
    (h : d.Moves rest made next) {kind : Kind} (hkind : kind ≠ .finish) :
    let found := Reckoner.expect d.lexemes.stop kind rest
    (next.expect kind).1 = found.token ∧
      d.Moves found.rest (made ++ found.reports) (next.expect kind).2 := by
  obtain ⟨htoken, hmoves⟩ := moves_expect hkind next
  rw [h.lexemes_eq, h.ahead_eq] at htoken hmoves
  exact ⟨htoken, h.trans hmoves⟩

/-- A move inside a group that is counted is one also without counting it. -/
theorem Moves.leave {next : Descent} {rest : List Token} {made : List Report}
    (h : Moves { d with depth := d.depth + 1 } rest made next) :
    d.Moves rest made { next with depth := next.depth - 1 } where
  lexemes_eq := h.lexemes_eq
  depth_eq := by
    have hdepth : next.depth = d.depth + 1 := h.depth_eq
    rw [hdepth, Int.add_sub_cancel]
  ahead_eq := h.ahead_eq
  place_eq := h.place_eq
  reports_eq := h.reports_eq

/-- A group past the limit is skipped as the readers skip it. -/
theorem moves_skipGroup (h : d.ahead = token :: tokens)
    (hfinish : ∀ other ∈ tokens, other.kind ≠ .finish) :
    let skipped := Reckoner.skipGroup d.lexemes.stop token tokens
    d.skipGroup.1 = skipped.tree ∧ d.Moves skipped.rest skipped.reports d.skipGroup.2 := by
  intro skipped
  have hinside := (moves_step h).trans
    (d.step.moves_report (.tooDeep d.current.position nestingLimit))
  rw [(moves_step h).ahead_eq, current_eq h] at hinside
  have hskip := moves_skip 0 (d.step.report (.tooDeep token.position nestingLimit))
    (by rwa [hinside.ahead_eq])
  rw [hinside.ahead_eq] at hskip
  obtain ⟨hclosing, hmoves⟩ := (hinside.trans hskip).expect (by decide : Kind.closing ≠ .finish)
  rw [Descent.skipGroup, current_eq h, hinside.current_eq]
  refine ⟨?_, hmoves⟩
  exact congrArg (Expr.group token _) hclosing

/-!
### Reading and the readers
-/

end Descent

/-- The readers of the levels of phrases. -/
def Rank.reader (stop : Int) (room : Nat) : Rank → Reader
  | primary => Reckoner.primary stop room
  | factor => Reckoner.factor stop room
  | term => Reckoner.term stop room

namespace Descent

/-- What is read from a descent is a phrase of the readers, and the descent moves behind it. -/
def Agrees (d : Descent) (p : Phrase) (passage : Passage d) : Prop :=
  passage.tree = p.tree ∧ d.Moves p.rest p.reports passage.behind

theorem agrees_number (d : Descent) (room : Nat) (h : d.current.kind ≠ .opening) :
    d.Agrees ((Rank.primary.reader d.lexemes.stop room).read d.ahead) (d.read .primary) := by
  have hclear : Clear (fun kind => kind = .opening) d.ahead := by
    cases hahead : d.ahead with
    | nil => exact clear_nil _
    | cons token tokens =>
        rw [current_eq hahead] at h
        simpa using h
  have hread : (Rank.primary.reader d.lexemes.stop room).read d.ahead =
      readNumeral d.lexemes.stop d.ahead := read_primary_of_clear _ room hclear
  obtain ⟨hnumber, hmoves⟩ := moves_expect (by decide : Kind.number ≠ .finish) d
  rw [hread, read, dif_neg h]
  exact ⟨congrArg Expr.numeral hnumber, hmoves⟩

/-- A group past the limit is read as the readers read it. -/
theorem agrees_skipped (d : Descent) (h : d.current.kind = .opening)
    (hdepth : (nestingLimit : Int) ≤ d.depth)
    (hfinish : ∀ token ∈ d.lexemes.tokens, token.kind ≠ .finish) :
    d.Agrees ((Rank.primary.reader d.lexemes.stop 0).read d.ahead) (d.read .primary) := by
  obtain ⟨opening, behind, hahead, hcurrent⟩ := exists_ahead_of_kind h (by decide)
  have hopening : opening.kind = .opening := hcurrent ▸ h
  have hread : (Rank.primary.reader d.lexemes.stop 0).read d.ahead =
      Reckoner.skipGroup d.lexemes.stop opening behind := by
    rw [hahead]
    exact read_primary_zero_of_opening _ hopening behind
  have hbehind : ∀ token ∈ behind, token.kind ≠ .finish := by
    intro token hmem
    have hmem : token ∈ d.lexemes.tokens.drop d.place := by
      rw [Cursor.ahead] at hahead
      exact hahead ▸ List.mem_cons_of_mem opening hmem
    exact hfinish token (List.mem_of_mem_drop hmem)
  rw [hread, read, dif_pos h, if_pos hdepth]
  exact moves_skipGroup hahead hbehind

/-- A group is read as the readers read it if its content is. -/
theorem agrees_group (d : Descent) {room : Nat} (h : d.current.kind = .opening)
    (hdepth : ¬ (nestingLimit : Int) ≤ d.depth)
    (hinner : let inside : Descent := { d.step with depth := d.step.depth + 1 }
      inside.Agrees ((Rank.term.reader inside.lexemes.stop room).read inside.ahead)
        (inside.read .term)) :
    d.Agrees ((Rank.primary.reader d.lexemes.stop (room + 1)).read d.ahead) (d.read .primary) := by
  obtain ⟨opening, behind, hahead, hcurrent⟩ := exists_ahead_of_kind h (by decide)
  have hopening : opening.kind = .opening := hcurrent ▸ h
  have hread : (Rank.primary.reader d.lexemes.stop (room + 1)).read d.ahead =
      readGroup d.lexemes.stop (term d.lexemes.stop room) opening behind := by
    rw [hahead]
    exact read_primary_of_opening _ room hopening behind
  have hstep := moves_step hahead
  obtain ⟨htree, hmoves⟩ := hinner
  have hahead' : Cursor.ahead { d.step with depth := d.step.depth + 1 }.toCursor = behind :=
    hstep.ahead_eq
  rw [hahead'] at htree hmoves
  obtain ⟨hclosing, hbehind⟩ :=
    (hstep.trans hmoves.leave).expect (by decide : Kind.closing ≠ .finish)
  rw [hread, read, dif_pos h, if_neg hdepth]
  refine ⟨?_, hbehind⟩
  rw [hcurrent]
  exact congr (congrArg (Expr.group opening) htree) hclosing

/-- A row of operands is read as the readers read it if its first operand and what follows are. -/
theorem agrees_row (d : Descent) {joins : Kind → Bool} {operand : Reader} {first : Passage d}
    (hfirst : d.Agrees (operand.read d.ahead) first) {others : Passage first.behind}
    (hothers : first.behind.Agrees
      (Reader.chainFrom joins operand first.tree first.behind.ahead) others) :
    d.Agrees ((operand.chain joins).read d.ahead)
      ⟨others.tree, others.behind, Nat.le_trans others.left_le first.left_le⟩ := by
  obtain ⟨htree, hmoves⟩ := hfirst
  obtain ⟨hwhole, hbehind⟩ := hothers
  rw [htree, hmoves.ahead_eq] at hwhole hbehind
  exact ⟨hwhole, hmoves.trans hbehind⟩

/-- A row goes on as the readers go on with it if the next operand and what follows are read so. -/
theorem agrees_join (d : Descent) {joins : Kind → Bool} {operand : Reader} {e : Expr}
    (h : joins d.current.kind = true) (hkind : d.current.kind ≠ .finish) {right : Passage d.step}
    (hright : d.step.Agrees (operand.read d.step.ahead) right) {others : Passage right.behind}
    (hothers : right.behind.Agrees
      (Reader.chainFrom joins operand (.binary e d.current right.tree) right.behind.ahead) others) :
    d.Agrees (Reader.chainFrom joins operand e d.ahead)
      ⟨others.tree, others.behind,
        Nat.le_trans others.left_le (Nat.le_trans right.left_le d.left_step_le)⟩ := by
  obtain ⟨operator, behind, hahead, hcurrent⟩ := exists_ahead_of_kind rfl hkind
  have hstep := moves_step hahead
  obtain ⟨htree, hmoves⟩ := hright
  obtain ⟨hwhole, hbehind⟩ := hothers
  rw [hcurrent] at h
  rw [htree, hmoves.ahead_eq, hstep.ahead_eq, hcurrent] at hwhole hbehind
  rw [hstep.ahead_eq] at hmoves
  rw [hahead, Reader.chainFrom, if_pos h]
  exact ⟨hwhole, (hstep.trans hmoves).trans hbehind⟩

theorem agrees_done (d : Descent) {rank : Rank} (room : Nat) (e : Expr)
    (h : ¬ rank.joins d.current.kind = true) :
    d.Agrees (Reader.chainFrom rank.joins (rank.operand.reader d.lexemes.stop room) e d.ahead)
      (extend rank e d) := by
  have hchain : Reader.chainFrom rank.joins (rank.operand.reader d.lexemes.stop room) e d.ahead =
      ⟨e, d.ahead, []⟩ := by
    cases hahead : d.ahead with
    | nil => rw [Reader.chainFrom]
    | cons token tokens =>
        rw [current_eq hahead] at h
        rw [Reader.chainFrom, if_neg h]
  rw [hchain, extend, dif_neg h]
  exact ⟨rfl, Moves.refl d⟩

/-- Whether reading from a descent is what the readers do, given that the groups that have been
    entered and those for which there is room are 128 together. -/
def ReadsAsReaders (rank : Rank) (d : Descent) : Prop :=
  ∀ room : Nat, d.depth + room = nestingLimit → (∀ token ∈ d.lexemes.tokens, token.kind ≠ .finish) →
    d.Agrees ((rank.reader d.lexemes.stop room).read d.ahead) (d.read rank)

/-- Whether going on with a phrase is what the readers do, on the same terms. -/
def ExtendsAsReaders (rank : Rank) (e : Expr) (d : Descent) : Prop :=
  ∀ room : Nat, d.depth + room = nestingLimit → (∀ token ∈ d.lexemes.tokens, token.kind ≠ .finish) →
    d.Agrees (Reader.chainFrom rank.joins (rank.operand.reader d.lexemes.stop room) e d.ahead)
      (extend rank e d)

/-- Going on behind a phrase happens on the terms of the descent in front of it. -/
theorem ExtendsAsReaders.behind {rank : Rank} {e : Expr} {p : Phrase} {passage : Passage d}
    (h : ExtendsAsReaders rank e passage.behind) (hagrees : d.Agrees p passage) {room : Nat}
    (hroom : d.depth + room = nestingLimit)
    (hfinish : ∀ token ∈ d.lexemes.tokens, token.kind ≠ .finish) :
    passage.behind.Agrees (Reader.chainFrom rank.joins (rank.operand.reader d.lexemes.stop room) e
      passage.behind.ahead) (extend rank e passage.behind) := by
  obtain ⟨-, hmoves⟩ := hagrees
  have hextend := h room
  rw [hmoves.depth_eq, hmoves.lexemes_eq] at hextend
  exact hextend hroom hfinish

/-- Reading from a descent is what the readers do that have room for the groups not yet entered. In
    particular the counter is the same before and behind every phrase. -/
theorem readsAsReaders (rank : Rank) (d : Descent) : ReadsAsReaders rank d := by
  -- There is one case for each way in which `read` and `extend` go on.
  refine read.induct ReadsAsReaders ExtendsAsReaders ?_ ?_ ?_ ?_ ?_ ?_ ?_ rank d
  · -- a group past the limit
    intro d hopening hdepth room hroom hfinish
    obtain rfl : room = 0 := by omega
    exact agrees_skipped d hopening hdepth hfinish
  · -- a group for which there is room
    intro d hopening hdepth ih room hroom hfinish
    obtain ⟨room, rfl⟩ : ∃ inner, room = inner + 1 := ⟨room - 1, by omega⟩
    have hinner : d.step.depth + 1 + room = nestingLimit := by
      have hdepth : d.step.depth = d.depth := rfl
      omega
    exact agrees_group d hopening hdepth (ih room hinner hfinish)
  · -- a number
    intro d hopening room hroom hfinish
    exact agrees_number d room hopening
  · -- a factor
    intro d first ihfirst ihothers _ room hroom hfinish
    have hfirst := ihfirst room hroom hfinish
    rw [read]
    exact agrees_row d hfirst (ihothers.behind hfirst hroom hfinish)
  · -- a term
    intro d first ihfirst ihothers _ room hroom hfinish
    have hfirst := ihfirst room hroom hfinish
    rw [read]
    exact agrees_row d hfirst (ihothers.behind hfirst hroom hfinish)
  · -- an operator and a further operand
    intro rank e d hjoins right ihright ihothers _ room hroom hfinish
    have hright := ihright room hroom hfinish
    rw [extend, dif_pos hjoins]
    exact agrees_join d hjoins (Rank.kind_ne_finish_of_joins hjoins) hright
      (ihothers.behind hright hroom hfinish)
  · -- no further operator
    intro rank e d hjoins room hroom hfinish
    exact agrees_done d room e hjoins

end Descent

end Reckoner
