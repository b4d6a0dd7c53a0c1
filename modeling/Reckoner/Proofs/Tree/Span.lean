/-
Module: Reckoner.Proofs.Tree.Span
Layer: Proofs
Purpose: Nodes and the text of the line. The leaves of a node, well formed or recovered, are what is
  written from the first of them to the last, the empty ones left out: without the blanks, without
  the stray characters, and without what stands between the parentheses of a hollow group, which the
  tree does not hold. Along the tree offsets never go back, the empty leaves and the end token
  included; this is read off the sweep, of which every step goes on from where the last one stopped.
Main exports: Part.span, Part.Covers.span_eq, Token.Ordered, Sweep.Output.Ascends, ascends_sweep,
  Tree.span_text
-/
import Reckoner.Proofs.Tree.Stretch

namespace Reckoner

open Text

/-- The characters of a line from the start of one token to the end of another, but for the blanks,
    the stray characters and what is inside the hollow groups under a node. -/
def Part.span (part : Part) (line : String) (first last : Token) : List Char :=
  ((slice line first.position (last.position + last.text.length)).filter fun place =>
    !within part.hollows place.2 && (!isBlank place.1 && !isStray place.1)).map Prod.fst

/-- Whether an offset is between the start of one token and the end of another. -/
def Token.between (first last : Token) (offset : Int) : Bool :=
  first.position ≤ offset && offset < last.position + last.text.length

/-!
### The text under a node
-/

theorem Lexemes.length_of_opening {line : String} {token : Token}
    (hmem : token ∈ (ofLine line).tokens) (hkind : token.kind = .opening) :
    token.text.length = 1 := by
  have hpartition := Scanner.partition_tokens line 0 line.toList
  rw [tokens_of_partition hpartition] at hmem
  rcases hpartition.text_of_mem (List.mem_filter.mp hmem).1 with
    ⟨hnumber, -⟩ | hblank | hfinish | ⟨c, -, htext⟩
  · simp [hkind] at hnumber
  · simp [hkind] at hblank
  · simp [hkind] at hfinish
  · simp [htext]

/-- The parentheses of hollow groups keep tokens whole: a character of a token is between them
    exactly if the token is. -/
theorem Token.Strung.within_eq {tokens : List Token} (h : Token.Strung tokens)
    {pairs : List (Token × Token)}
    (hpairs : ∀ pair ∈ pairs, pair.1 ∈ tokens ∧ pair.2 ∈ tokens ∧ pair.1.text.length = 1)
    {token : Token} (hmem : token ∈ tokens) {offset : Int} (hstart : token.position ≤ offset)
    (hend : offset < token.position + token.text.length) :
    within pairs offset = within pairs token.position := by
  rw [Bool.eq_iff_iff]
  simp only [within, List.any_eq_true, Bool.and_eq_true, decide_eq_true_eq]
  refine exists_congr fun pair => and_congr_right fun hpair => ?_
  obtain ⟨hopening, hclosing, hlength⟩ := hpairs pair hpair
  have hbehind := h.end_le_iff hmem hopening hstart hend
  have hbefore := h.start_le_iff hmem hclosing hstart hend
  omega

/-- The tokens between the ends of a stretch, both included, are the stretch. -/
theorem Token.Strung.filter_between {front stretch behind : List Token}
    (h : Token.Strung (front ++ stretch ++ behind)) {first last : Token}
    (hfirst : stretch.head? = some first) (hlast : stretch.getLast? = some last) :
    (front ++ stretch ++ behind).filter (fun token => first.between last token.position) =
      stretch := by
  have hinside : stretch.Sublist (front ++ stretch ++ behind) :=
    (List.sublist_append_right _ _).trans (List.sublist_append_left _ _)
  have hmem : last ∈ stretch := List.mem_of_getLast? hlast
  have hseparate := h.separate
  rw [List.pairwise_append, List.pairwise_append] at hseparate
  obtain ⟨⟨-, -, hbefore⟩, -, hbehind⟩ := hseparate
  have hfront : front.filter (fun token => first.between last token.position) = [] := by
    rw [List.filter_eq_nil_iff]
    intro token htoken
    have hle := hbefore token htoken first (List.mem_of_head? hfirst)
    have hpos := h.length_pos (List.mem_append_left _ (List.mem_append_left _ htoken))
    simp only [between, Bool.and_eq_true, decide_eq_true_eq]
    omega
  have hback : behind.filter (fun token => first.between last token.position) = [] := by
    rw [List.filter_eq_nil_iff]
    intro token htoken
    have hle := hbehind last (List.mem_append_right _ hmem) token htoken
    simp only [between, Bool.and_eq_true, decide_eq_true_eq]
    omega
  have hall : stretch.filter (fun token => first.between last token.position) = stretch := by
    rw [List.filter_eq_self]
    intro token htoken
    have hle := (h.sublist hinside).head?_le hfirst htoken
    have hge := (h.sublist hinside).le_getLast? hlast htoken
    have hpos := h.length_pos (hinside.subset hmem)
    simp only [between, Bool.and_eq_true, decide_eq_true_eq]
    omega
  rw [List.filter_append, List.filter_append, hfront, hback, hall, List.nil_append, List.append_nil]

/-- What is written from the first to the last of the leaves of a node that stands for a stretch of
    the tokens of a line. -/
theorem Part.Covers.span_eq {line : String} {part : Part} {stretch : List Token}
    (h : part.Covers stretch) (hcontained : stretch <:+: (Lexemes.ofLine line).tokens)
    {first last : Token} (hfirst : first ∈ part.solid.head?) (hlast : last ∈ part.solid.getLast?) :
    part.span line first last = part.node.leaves.flatMap fun token => token.text.toList := by
  have hstrung := Lexemes.strung_tokens line
  have hsub := hstrung.sublist hcontained.sublist
  have hhead := h.head?_eq hsub hfirst
  have htail := h.getLast?_eq hsub hlast
  have hmem : stretch ⊆ (Lexemes.ofLine line).tokens := hcontained.subset
  have hpairs : ∀ pair ∈ part.hollows, pair.1 ∈ (Lexemes.ofLine line).tokens ∧
      pair.2 ∈ (Lexemes.ofLine line).tokens ∧ pair.1.text.length = 1 := by
    intro pair hpair
    obtain ⟨hopening, hclosing, hkind⟩ := h.mem_of_mem_hollows hpair
    exact ⟨hmem hopening, hmem hclosing, Lexemes.length_of_opening (hmem hopening) hkind⟩
  -- Neither the ends of the stretch nor those of a hollow group are inside a lexeme.
  have hwhole : ∀ token ∈ (Lexemes.ofLine line).tokens, ∀ place ∈ token.places,
      (!within part.hollows place.2 && first.between last place.2) =
        (!within part.hollows token.position && first.between last token.position) := by
    intro token htoken place hplace
    obtain ⟨hstart, hend⟩ := Token.bounds_of_mem_places (hstrung.nonneg token htoken) hplace
    have hbefore := hstrung.start_le_iff htoken (hmem (List.mem_of_head? hhead)) hstart hend
    have hbehind := hstrung.end_le_iff htoken (hmem (List.mem_of_getLast? htail)) hstart hend
    have hlt : (place.2 : Int) < last.position + last.text.length ↔
        token.position < last.position + last.text.length := by omega
    simp only [Token.between, hbefore, hlt, hstrung.within_eq hpairs htoken hstart hend]
  have hkept : (Lexemes.ofLine line).tokens.filter (fun token =>
      !within part.hollows token.position && first.between last token.position) = part.solid := by
    obtain ⟨front, behind, hsplit⟩ := hcontained
    rw [← hsplit] at hstrung
    rw [← List.filter_filter, ← hsplit, hstrung.filter_between hhead htail]
    exact h.outside_eq hsub
  have hchosen := @Lexemes.map_fst_filter_zipIdx line
    (fun offset => !within part.hollows offset && first.between last offset) _ hwhole
  calc part.span line first last
      = (line.toList.zipIdx.filter fun place =>
          (!within part.hollows place.2 && first.between last place.2) &&
            (!isBlank place.1 && !isStray place.1)).map Prod.fst := by
        rw [span, slice, List.filter_filter]
        refine congrArg (List.map Prod.fst) (List.filter_congr fun place _ => ?_)
        rw [Token.between, Bool.and_right_comm]
    _ = part.solid.flatMap fun token => token.text.toList := by rw [hchosen, hkept]
    _ = part.node.leaves.flatMap fun token => token.text.toList := Token.flatMap_text_solid _

/-!
### Offsets along a tree
-/

/-- Tokens in the order of their offsets, none of them behind the end of the line. -/
def Token.Ordered (stop : Int) (tokens : List Token) : Prop :=
  (tokens ++ [finish stop]).Pairwise fun one other => one.position ≤ other.position

namespace Token.Ordered

variable {stop : Int} {tokens : List Token}

theorem drop (h : Ordered stop tokens) (count : Nat) : Ordered stop (tokens.drop count) :=
  List.Pairwise.sublist ((List.drop_sublist count tokens).append_right [finish stop]) h

theorem tail (h : Ordered stop tokens) : Ordered stop tokens.tail := by
  rw [← List.drop_one]
  exact h.drop 1

/-- The token that comes next does not start behind those that come later. -/
theorem upcoming_le (h : Ordered stop tokens) (count : Nat) :
    (upcoming stop tokens).position ≤ (upcoming stop (tokens.drop count)).position := by
  cases tokens with
  | nil => simp
  | cons token behind =>
      cases count with
      | zero => exact Int.le_refl _
      | succ count =>
          have hmem : upcoming stop (behind.drop count) ∈ behind ++ [finish stop] := by
            cases hdrop : behind.drop count with
            | nil => exact List.mem_append_right _ List.mem_cons_self
            | cons next others =>
                have hnext : next ∈ behind.drop count := by simp [hdrop]
                exact List.mem_append_left _ (List.mem_of_mem_drop hnext)
          exact List.rel_of_pairwise_cons h hmem

theorem upcoming_le_tail (h : Ordered stop tokens) :
    (upcoming stop tokens).position ≤ (upcoming stop tokens.tail).position := by
  rw [← List.drop_one]
  exact h.upcoming_le 1

end Token.Ordered

namespace Sweep.Output

/-- The leaves that are handed out and the end token are in the order of their offsets, and none is
    in front of a place. -/
def Ascends (place : Int) (output : Output) : Prop :=
  (place :: (output.leaves ++ [output.finish]).map Token.position).Pairwise (· ≤ ·)

variable {place later : Int} {output : Output}

theorem Ascends.mono (h : output.Ascends later) (hle : place ≤ later) : output.Ascends place := by
  obtain ⟨hfirst, hothers⟩ := List.pairwise_cons.mp h
  exact List.pairwise_cons.mpr
    ⟨fun position hmem => Int.le_trans hle (hfirst position hmem), hothers⟩

theorem Ascends.after_cons {token : Token} {leaves : List Token} {reports : List Report}
    (h : (output.after leaves reports).Ascends token.position) (hle : place ≤ token.position) :
    (output.after (token :: leaves) reports).Ascends place := by
  refine List.pairwise_cons.mpr ⟨fun position hmem => ?_, h⟩
  rcases List.mem_cons.mp hmem with rfl | hmem
  · exact hle
  · exact Int.le_trans hle (List.rel_of_pairwise_cons h hmem)

theorem Ascends.after_singleton {token : Token} {reports : List Report}
    (h : output.Ascends later) (hlater : token.position ≤ later) (hle : place ≤ token.position) :
    (output.after [token] reports).Ascends place := by
  have hrest : (output.after [] reports).Ascends token.position := h.mono hlater
  exact .after_cons hrest hle

end Sweep.Output

/-- Where a sweep halts, everything that is handed out stands at the token that does not fit. -/
theorem Sweep.ascends_halt (groups : Nat) (token : Token) :
    (Sweep.halt groups token).Ascends token.position := by
  induction groups with
  | zero =>
      by_cases hfinish : token.kind = .finish
      · simp [Output.Ascends, halt, hfinish]
      · simp [Output.Ascends, halt, hfinish, Token.missing]
  | succ groups ih =>
      rw [halt_succ]
      exact ih.after_singleton (Int.le_refl _) (Int.le_refl _)

/-- Sweeping over ordered tokens hands out leaves in the order of their offsets. -/
theorem ascends_sweep {stop : Int} (mode : Sweep.Mode) (groups : Nat) {tokens : List Token}
    (h : Token.Ordered stop tokens) :
    (sweep stop mode groups tokens).Ascends (upcoming stop tokens).position := by
  -- What a step hands out is not in front of the token that comes next, and not behind what the rest
  -- of the sweep starts with.
  induction mode, groups, tokens using sweep_induction stop with
  | opening groups tokens hopening hgroups ih =>
      rw [sweep_opening hopening hgroups]
      exact (ih h.tail).after_singleton h.upcoming_le_tail (Int.le_refl _)
  | skipped groups tokens i hopening hgroups hmatching ih =>
      obtain ⟨closing, hclosing, -, -⟩ := exists_closing_of_matching? hmatching
      have hupcoming : upcoming stop (tokens.tail.drop i) = closing := by
        rw [upcoming, List.headD_eq_head?_getD, List.head?_drop, hclosing, Option.getD_some]
      have hhole := h.tail.upcoming_le i
      have hbehind := (h.tail.drop i).upcoming_le 1
      rw [hupcoming] at hhole hbehind
      rw [List.drop_drop] at hbehind
      rw [sweep_skipped hopening hgroups hmatching hclosing]
      have hrest := ih (h.tail.drop (i + 1))
      exact .after_cons (.after_cons (hrest.after_singleton hbehind hhole) h.upcoming_le_tail)
        (Int.le_refl _)
  | unclosed groups tokens hopening hgroups hmatching ih =>
      have hhole : (upcoming stop tokens.tail).position ≤ stop := by
        have hend := h.tail.upcoming_le tokens.tail.length
        rwa [List.drop_length] at hend
      have hrest := ih (List.pairwise_singleton _ _)
      rw [sweep_unclosed hopening hgroups hmatching]
      exact .after_cons (.after_cons (hrest.after_singleton (Int.le_refl stop) hhole)
        h.upcoming_le_tail) (Int.le_refl _)
  | number groups tokens hnumber ih =>
      rw [sweep_number hnumber]
      exact (ih h.tail).after_singleton h.upcoming_le_tail (Int.le_refl _)
  | missing groups tokens hopening hnumber ih =>
      rw [sweep_missing hopening hnumber]
      exact (ih h).after_singleton (Int.le_refl _) (Int.le_refl _)
  | operator groups tokens hoperator ih =>
      rw [sweep_isOperator hoperator]
      exact (ih h.tail).after_singleton h.upcoming_le_tail (Int.le_refl _)
  | closing groups tokens hclosing ih =>
      rw [sweep_closing hclosing]
      exact (ih h.tail).after_singleton h.upcoming_le_tail (Int.le_refl _)
  | halt groups tokens hoperator hclosing =>
      rw [sweep_halt hoperator hclosing]
      exact Sweep.ascends_halt groups _

/-!
### Whole lines
-/

/-- The lexemes of a line are ordered, and the line ends behind them. -/
theorem Lexemes.ordered_tokens (line : String) :
    Token.Ordered (ofLine line).stop (ofLine line).tokens := by
  have hpartition := Scanner.partition_tokens line 0 line.toList
  have hwith : (ofLine line).withFinish.Pairwise fun one other => one.position < other.position := by
    rw [withFinish_ofLine]
    exact hpartition.ascending.1.filter _
  exact hwith.imp Int.le_of_lt

namespace Tree

/-- Offsets along the leaves of a line and its end token never go back. -/
theorem pairwise_position (line : String) :
    ((ofLine line).root.leaves ++ [(ofLine line).finish]).Pairwise
      fun one other => one.position ≤ other.position := by
  obtain ⟨hleaves, hfinish, -⟩ := ofLexemes_eq_sweep (Lexemes.ofLine line)
  have hascends := ascends_sweep .operand 0 (Lexemes.ordered_tokens line)
  rw [ofLine, hleaves, hfinish]
  exact List.pairwise_map.mp (List.Pairwise.of_cons hascends)

/-- The root of a line stands for a stretch of its lexemes. -/
theorem exists_covers_root (line : String) :
    ∃ stretch, stretch <:+: (Lexemes.ofLine line).tokens ∧ (ofLine line).root.Covers 0 stretch := by
  have hcourse := course_term (Lexemes.ofLine line).stop nestingLimit (Lexemes.ofLine line).tokens
  obtain ⟨stretch, behind, hsplit, hcovers, -⟩ :=
    hcourse.exists_covers (Lexemes.strung_tokens line).text_ne (Nat.zero_add 128)
  refine ⟨stretch, ?_, hcovers⟩
  rw [hsplit]
  exact (List.prefix_append stretch behind).isInfix

/-- A leaf of a line that is not empty is written at its offset. -/
theorem slice_of_mem_leaves {line : String} {token : Token} (hmem : token ∈ (ofLine line).root.leaves)
    (hne : token.text ≠ "") :
    (slice line token.position (token.position + token.text.length)).map Prod.fst =
      token.text.toList := by
  have hpartition := Scanner.partition_tokens line 0 line.toList
  have hstrung := Lexemes.strung_tokens line
  obtain ⟨stretch, hcontained, hcovers⟩ := exists_covers_root line
  have hsolid : token ∈ Token.solid (ofLine line).root.leaves :=
    List.mem_filter.mpr ⟨hmem, by simpa using hne⟩
  rw [← hcovers.outside_eq (hstrung.sublist hcontained.sublist)] at hsolid
  have hlexeme : token ∈ (Lexemes.ofLine line).tokens :=
    hcontained.subset (List.mem_filter.mp hsolid).1
  rw [Lexemes.tokens_of_partition hpartition, List.mem_filter] at hlexeme
  obtain ⟨hscanned, hkind⟩ := hlexeme
  have hfinish : token.kind ≠ .finish := by
    rw [Token.isLexeme, Bool.and_eq_true, bne_iff_ne] at hkind
    exact hkind.2
  obtain ⟨before, behind, hline, hposition⟩ := hpartition.occurs hscanned hfinish
  have hslice := map_fst_slice_of_append hline
  rw [hposition, Nat.zero_add, ← String.length_toList]
  exact hslice

/-- Every node of every line, well formed or recovered, is what is written from the first of its
    leaves to the last, empty leaves aside: the text in between, without its blanks, without its
    stray characters, and without what is inside the groups under the node that 128 others of the
    tree enclose and that are closed, is the text of the leaves one after the other. Along the
    leaves and the end token offsets never go back, and each leaf that is not empty is written at
    its offset. -/
theorem span_text (line : String) :
    let tree := ofLine line
    (∀ part ∈ tree.root.parts 0, ∀ first ∈ part.solid.head?, ∀ last ∈ part.solid.getLast?,
        part.span line first last = part.node.leaves.flatMap fun token => token.text.toList) ∧
      (tree.root.leaves ++ [tree.finish]).Pairwise (fun one other => one.position ≤ other.position) ∧
      ∀ token ∈ tree.root.leaves, token.text ≠ "" →
        (slice line token.position (token.position + token.text.length)).map Prod.fst =
          token.text.toList := by
  intro tree
  refine ⟨?_, pairwise_position line, fun token hmem hne => slice_of_mem_leaves hmem hne⟩
  intro part hpart first hfirst last hlast
  obtain ⟨stretch, hcontained, hcovers⟩ := exists_covers_root line
  obtain ⟨inner, hinside, hinner⟩ := hcovers.exists_part_covers hpart
  exact hinner.span_eq (hinside.trans hcontained) hfirst hlast

end Tree

end Reckoner
