/-
Module: Reckoner.Proofs.Tree.Missing
Layer: Proofs
Purpose: What is missing on a line and what is reported. Reading makes a report exactly where it puts
  an empty token into the tree, so behind the reports of the scan there is one report for each empty
  leaf, in the order of the leaves. What it says depends on the leaf alone: on its kind, on the groups
  around it, and on the token of the line that stands where the leaf was put. All other leaves are
  tokens of the line.
Main exports: Leaf, Expr.leavesWithin, Leaf.Explained, Legible, Accounts, Course.accounts,
  Course.mem_leaves, Tree.diagnostics_eq_missing
-/
import Mathlib.Data.List.Forall2
import Reckoner.Proofs.Tree.Acceptance
import Reckoner.Proofs.Tree.Course

namespace Reckoner

open Grammar

/-!
### Leaves and the groups around them
-/

/-- A leaf of a tree, with the opening parentheses of the groups to which it belongs, the innermost
    first. -/
structure Leaf where
  token : Token
  around : List Token

/-- The leaves of a tree from left to right, given the opening parentheses of the groups around the
    tree. The parentheses of a group belong to the group. -/
def Expr.leavesWithin : Expr → List Token → List Leaf
  | numeral token, around => [⟨token, around⟩]
  | group opening inner closing, around =>
      ⟨opening, opening :: around⟩ ::
        (inner.leavesWithin (opening :: around) ++ [⟨closing, opening :: around⟩])
  | binary left operator right, around =>
      left.leavesWithin around ++ ⟨operator, around⟩ :: right.leavesWithin around

theorem Expr.map_token_leavesWithin (e : Expr) (around : List Token) :
    (e.leavesWithin around).map Leaf.token = e.leaves := by
  induction e generalizing around with
  | numeral token => rfl
  | group opening inner closing ih => simp [leavesWithin, leaves, ih]
  | binary left operator right ihl ihr => simp [leavesWithin, leaves, ihl, ihr]

/-- What is said about an empty leaf of a line that has the given tokens. A number inside 129 groups
    stands for the content of the innermost of them, which is nested too deep. In any other place the
    leaf stands for a token of its kind, and the message names the kind of the one token of the line
    that stands there instead. -/
inductive Leaf.Explained (tokens : List Token) (leaf : Leaf) : String → Prop where
  | tooDeep {opening : Token} (hkind : leaf.token.kind = .number) (hdeep : leaf.around.length = 129)
      (hopening : leaf.around.head? = some opening) :
      Explained tokens leaf
        s!"ERR: Parentheses nested deeper than 128 levels at position {opening.position}"
  | unexpected {found : Token} (hkind : ¬ (leaf.token.kind = .number ∧ leaf.around.length = 129))
      (hfound : tokens.filter (fun token => token.position = leaf.token.position) = [found]) :
      Explained tokens leaf
        s!"ERR: Unexpected token <{found.kind.name}>, expected <{leaf.token.kind.name}>"

/-- Some leaves account for some reports: there is one report for each empty leaf, in order. -/
def Accounts (tokens : List Token) (leaves : List Leaf) (reports : List Report) : Prop :=
  List.Forall₂ (fun leaf report => leaf.Explained tokens report.message)
    (leaves.filter fun leaf => leaf.token.text = "") reports

/-- The tokens of a line with its end: none is empty, and each starts behind the start of the one
    before. -/
structure Legible (stop : Int) (tokens : List Token) : Prop where
  finish_mem : Token.finish stop ∈ tokens
  text_ne : ∀ token ∈ tokens, token.text ≠ ""
  ascending : tokens.Pairwise fun one other => one.position < other.position

namespace Legible

variable {stop : Int} {all tokens : List Token}

theorem filter_position (h : Legible stop all) {found : Token} (hmem : found ∈ all) :
    all.filter (fun token => token.position = found.position) = [found] := by
  have hfound : found ∈ all.filter fun token => token.position = found.position :=
    List.mem_filter.mpr ⟨hmem, by simp⟩
  have hsame : ∀ token ∈ all.filter (fun token => token.position = found.position),
      token.position = found.position := by
    intro token htoken
    simpa using (List.mem_filter.mp htoken).2
  have hascending := h.ascending.filter fun token => token.position = found.position
  -- Two tokens at one place would not be in the order of their places.
  cases hplace : all.filter (fun token => token.position = found.position) with
  | nil =>
      rw [hplace] at hfound
      exact absurd hfound (by simp)
  | cons first others =>
      rw [hplace] at hfound hsame hascending
      cases others with
      | nil => rw [List.mem_singleton.mp hfound]
      | cons second others =>
          have hlt := (List.pairwise_cons.mp hascending).1 second (by simp)
          have hfirst := hsame first (by simp)
          have hsecond := hsame second (by simp)
          omega

theorem upcoming_mem (h : Legible stop all) (hsubset : tokens ⊆ all) :
    upcoming stop tokens ∈ all := by
  cases tokens with
  | nil => exact h.finish_mem
  | cons token behind => exact hsubset List.mem_cons_self

end Legible

/-!
### The account of a phrase
-/

section

variable {stop : Int} {all tokens : List Token}

theorem Accounts.append {leaves others : List Leaf} {reports further : List Report}
    (hleaves : Accounts all leaves reports) (hothers : Accounts all others further) :
    Accounts all (leaves ++ others) (reports ++ further) := by
  rw [Accounts, List.filter_append]
  exact List.rel_append hleaves hothers

theorem Accounts.cons_of_mem (h : Legible stop all) {token : Token} (hmem : token ∈ all)
    (around : List Token) {leaves : List Leaf} {reports : List Report}
    (hleaves : Accounts all leaves reports) :
    Accounts all (⟨token, around⟩ :: leaves) reports := by
  rw [Accounts, List.filter_cons_of_neg (by simpa using h.text_ne token hmem)]
  exact hleaves

theorem Accounts.singleton {leaf : Leaf} {report : Report} (hempty : leaf.token.text = "")
    (h : leaf.Explained all report.message) : Accounts all [leaf] [report] := by
  rw [Accounts, List.filter_cons_of_pos (by simpa using hempty)]
  exact .cons h .nil

/-- The message about a group that is nested too deep. -/
theorem message_tooDeep (position : Int) :
    (Report.tooDeep position nestingLimit).message =
      s!"ERR: Parentheses nested deeper than 128 levels at position {position}" := by
  have hfront : toString "ERR: Parentheses nested deeper than " ++ toString (nestingLimit : Int) ++
      toString " levels at position " =
        toString "ERR: Parentheses nested deeper than 128 levels at position " := rfl
  exact congrArg (· ++ toString position) hfront

variable (h : Legible stop all) (hsubset : tokens ⊆ all)
include h hsubset

/-- What was asked for is a token of the line, or an empty leaf with its report. -/
theorem accounts_expect {kind : Kind} {around : List Token}
    (hkind : ¬ (kind = .number ∧ around.length = 129)) :
    Accounts all [⟨(expect stop kind tokens).token, around⟩] (expect stop kind tokens).reports := by
  have hmem := h.upcoming_mem hsubset
  by_cases hfound : (upcoming stop tokens).kind = kind
  · have hexpect : expect stop kind tokens = ⟨upcoming stop tokens, tokens.tail, []⟩ :=
      if_pos hfound
    rw [hexpect]
    exact .cons_of_mem h hmem around List.Forall₂.nil
  · have hexpect : expect stop kind tokens =
        ⟨.missing kind (upcoming stop tokens).position, tokens,
          [.unexpected (upcoming stop tokens).kind.name kind.name]⟩ := if_neg hfound
    rw [hexpect]
    exact .singleton rfl (.unexpected hkind (h.filter_position hmem))

/-- Every phrase accounts for its reports. The groups around it and those for which there is room
    are always 128. -/
theorem Course.accounts {rank : Rank} {room : Nat} {phrase : Phrase}
    (hcourse : Course stop rank room tokens phrase) {around : List Token}
    (hroom : around.length + room = 128) :
    Accounts all (phrase.tree.leavesWithin around) phrase.reports := by
  induction hcourse generalizing around with
  | number hclear =>
      apply accounts_expect h hsubset
      rintro ⟨-, hdeep⟩
      omega
  | @skipped opening behind hopening =>
      obtain ⟨hmem, hbehind⟩ := List.cons_subset.mp hsubset
      have hdropped : dropGroup 0 behind ⊆ all :=
        List.Subset.trans (dropGroup_suffix 0 behind).subset hbehind
      have hhole : Accounts all
          [⟨.missing .number (upcoming stop behind).position, opening :: around⟩]
          [.tooDeep opening.position nestingLimit] := by
        apply Accounts.singleton rfl
        rw [message_tooDeep]
        refine .tooDeep rfl ?_ rfl
        rw [List.length_cons]
        omega
      have hclosing : Accounts all
          [⟨(expect stop .closing (dropGroup 0 behind)).token, opening :: around⟩]
          (expect stop .closing (dropGroup 0 behind)).reports :=
        accounts_expect h hdropped (by simp)
      exact .cons_of_mem h hmem _ (hhole.append hclosing)
  | @group room opening behind inner hopening hinner hclear ih =>
      obtain ⟨hmem, hbehind⟩ := List.cons_subset.mp hsubset
      have hrest : inner.rest ⊆ all :=
        List.Subset.trans hinner.rest_suffix.subset hbehind
      have hcontent : Accounts all (inner.tree.leavesWithin (opening :: around)) inner.reports := by
        apply ih hbehind
        rw [List.length_cons]
        omega
      have hclosing : Accounts all [⟨(expect stop .closing inner.rest).token, opening :: around⟩]
          (expect stop .closing inner.rest).reports :=
        accounts_expect h hrest (by simp)
      exact .cons_of_mem h hmem _ (hcontent.append hclosing)
  | operand hcourse ih => exact ih hsubset hroom
  | @join rank room tokens behind left right operator hleft hrest hjoins hright ihleft ihright =>
      have hahead : left.rest ⊆ all :=
        List.Subset.trans hleft.rest_suffix.subset hsubset
      rw [hrest] at hahead
      obtain ⟨hmem, hbehind⟩ := List.cons_subset.mp hahead
      exact (ihleft hsubset hroom).append
        (.cons_of_mem h hmem around (ihright hbehind hroom))

/-- What was asked for is a token of the line or an empty token. -/
theorem token_expect_cases (kind : Kind) :
    (expect stop kind tokens).token ∈ all ∨
      ∃ position, (expect stop kind tokens).token = .missing kind position := by
  unfold expect
  dsimp only
  split
  · exact .inl (h.upcoming_mem hsubset)
  · exact .inr ⟨_, rfl⟩

/-- Every leaf of a phrase is a token of the line or an empty token. -/
theorem Course.mem_leaves {rank : Rank} {room : Nat} {phrase : Phrase}
    (hcourse : Course stop rank room tokens phrase) {token : Token}
    (hmem : token ∈ phrase.tree.leaves) :
    token ∈ all ∨ ∃ kind position, token = .missing kind position := by
  induction hcourse with
  | number hclear =>
      obtain rfl := List.mem_singleton.mp hmem
      exact (token_expect_cases h hsubset .number).imp_right fun hmissing => ⟨_, hmissing⟩
  | @skipped opening behind hopening =>
      obtain ⟨hopen, hbehind⟩ := List.cons_subset.mp hsubset
      have hdropped : dropGroup 0 behind ⊆ all :=
        List.Subset.trans (dropGroup_suffix 0 behind).subset hbehind
      simp only [skipGroup, Expr.leaves, List.mem_cons, List.cons_append, List.nil_append,
        List.not_mem_nil, or_false] at hmem
      rcases hmem with rfl | rfl | rfl
      · exact .inl hopen
      · exact .inr ⟨_, _, rfl⟩
      · exact (token_expect_cases h hdropped .closing).imp_right fun hmissing => ⟨_, hmissing⟩
  | @group room opening behind inner hopening hinner hclear ih =>
      obtain ⟨hopen, hbehind⟩ := List.cons_subset.mp hsubset
      have hrest : inner.rest ⊆ all :=
        List.Subset.trans hinner.rest_suffix.subset hbehind
      simp only [Phrase.enclosed, Expr.leaves, List.mem_cons, List.mem_append, List.not_mem_nil,
        or_false] at hmem
      rcases hmem with rfl | hcontent | rfl
      · exact .inl hopen
      · exact ih hbehind hcontent
      · exact (token_expect_cases h hrest .closing).imp_right fun hmissing => ⟨_, hmissing⟩
  | operand hcourse ih => exact ih hsubset hmem
  | @join rank room tokens behind left right operator hleft hrest hjoins hright ihleft ihright =>
      have hahead : left.rest ⊆ all :=
        List.Subset.trans hleft.rest_suffix.subset hsubset
      rw [hrest] at hahead
      obtain ⟨hoperator, hbehind⟩ := List.cons_subset.mp hahead
      simp only [Phrase.join, Expr.leaves, List.mem_append, List.mem_cons] at hmem
      rcases hmem with hleaf | rfl | hleaf
      · exact ihleft hsubset hleaf
      · exact .inl hoperator
      · exact ihright hbehind hleaf

end

/-!
### Whole lines
-/

/-- The tokens of a line but for blanks and bad characters. -/
theorem Lexemes.legible_withFinish (line : String) :
    Legible (ofLine line).stop (ofLine line).withFinish := by
  have hpartition := Scanner.partition_tokens line 0 line.toList
  refine ⟨by simp [withFinish], ?_, ?_⟩
  · intro token hmem
    rw [withFinish_ofLine] at hmem
    exact hpartition.text_ne_empty (List.mem_filter.mp hmem).1
  · rw [withFinish_ofLine]
    exact hpartition.ascending.1.filter _

namespace Tree

/-- The root of a line is read from its lexemes. -/
theorem course_root (line : String) :
    Course (Lexemes.ofLine line).stop .term nestingLimit (Lexemes.ofLine line).tokens
      ((term (Lexemes.ofLine line).stop nestingLimit).read (Lexemes.ofLine line).tokens) :=
  course_term _ nestingLimit _

/-- What is left behind the root are lexemes of the line. -/
theorem rest_root_subset (line : String) :
    ((term (Lexemes.ofLine line).stop nestingLimit).read (Lexemes.ofLine line).tokens).rest ⊆
      (Lexemes.ofLine line).withFinish :=
  List.Subset.trans (course_root line).rest_suffix.subset (List.subset_append_left _ _)

/-- The reports of a line are those of its scan and, behind them, one for each empty token among its
    leaves and its end token. -/
theorem reports_eq_append (line : String) :
    ∃ reports, (ofLine line).reports = (Scanner.ofLine line).tokens.reports ++ reports ∧
      Accounts (Lexemes.ofLine line).withFinish
        ((ofLine line).root.leavesWithin [] ++ [⟨(ofLine line).finish, []⟩]) reports := by
  have hlegible := Lexemes.legible_withFinish line
  have hroot := (course_root line).accounts hlegible (List.subset_append_left _ _)
    (show ([] : List Token).length + nestingLimit = 128 from rfl)
  have hnone : ¬ (Kind.finish = .number ∧ ([] : List Token).length = 129) := by simp
  have hfinish := accounts_expect hlegible (rest_root_subset line) hnone
  exact ⟨_, List.append_assoc _ _ _, hroot.append hfinish⟩

/-- Every leaf of a line and its end token are tokens of the line or empty tokens. -/
theorem mem_leaves_cases (line : String) {token : Token}
    (hmem : token ∈ (ofLine line).root.leaves ++ [(ofLine line).finish]) :
    token ∈ (Lexemes.ofLine line).withFinish ∨ ∃ kind position, token = .missing kind position := by
  have hlegible := Lexemes.legible_withFinish line
  rcases List.mem_append.mp hmem with hleaf | hfinish
  · exact (course_root line).mem_leaves hlegible (List.subset_append_left _ _) hleaf
  · obtain rfl := List.mem_singleton.mp hfinish
    exact (token_expect_cases hlegible (rest_root_subset line) .finish).imp_right
      fun hmissing => ⟨_, hmissing⟩

/-- The diagnostics of every line are the messages of its scan and behind them one message for each
    empty token among the leaves of its root and its end token, in this order. An empty token has
    no value, and a token that is not empty is one that was scanned. -/
theorem diagnostics_eq_missing (line : String) :
    let tokens := (Token.scan line).filter fun token => !token.kind.isSkipped
    let tree := ofLine line
    let leaves := tree.root.leavesWithin [] ++ [⟨tree.finish, []⟩]
    leaves.map Leaf.token = tree.root.leaves ++ [tree.finish] ∧
      (∃ messages, tree.diagnostics =
          (Scanner.ofLine line).tokens.reports.map Report.message ++ messages ∧
        List.Forall₂ (Leaf.Explained tokens) (leaves.filter fun leaf => leaf.token.text = "")
          messages) ∧
      ∀ token ∈ tree.root.leaves ++ [tree.finish],
        (token.text = "" → token.value = none) ∧
          (token.text ≠ "" → token ∈ Token.scan line) := by
  intro tokens tree leaves
  have hlexemes : (Lexemes.ofLine line).withFinish = tokens := Lexemes.withFinish_ofLine line
  refine ⟨?_, ?_, ?_⟩
  · simp [leaves, Expr.map_token_leavesWithin]
  · obtain ⟨reports, hreports, haccounts⟩ := reports_eq_append line
    rw [hlexemes] at haccounts
    refine ⟨reports.map Report.message, ?_, ?_⟩
    · rw [diagnostics, hreports, List.map_append]
    · exact List.forall₂_map_right_iff.mpr haccounts
  · intro token hmem
    rcases mem_leaves_cases line hmem with htoken | ⟨kind, position, rfl⟩
    · have hne := (Lexemes.legible_withFinish line).text_ne token htoken
      rw [hlexemes] at htoken
      exact ⟨fun hempty => absurd hempty hne, fun _ => (List.mem_filter.mp htoken).1⟩
    · exact ⟨fun _ => rfl, fun hne => absurd rfl hne⟩

end Tree

end Reckoner
