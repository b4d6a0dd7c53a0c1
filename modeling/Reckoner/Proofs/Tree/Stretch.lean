/-
Module: Reckoner.Proofs.Tree.Stretch
Layer: Proofs
Purpose: The stretch of tokens that a node stands for. Every phrase is read from a stretch of the
  tokens of a line without a gap, and so is every node inside it: the tokens of the stretch are the
  leaves of the node that are not empty, in order, but for what lies inside the groups that are
  nested too deep. Such a group is closed by a real parenthesis or else nothing is read behind it;
  the tokens up to its parenthesis belong to its stretch and are left out of its leaves.
Main exports: Expr.Covers, Expr.Covers.exists_part_covers, Part.Covers.outside_eq,
  Part.Covers.head?_eq, Part.Covers.getLast?_eq, Course.exists_covers
-/
import Reckoner.Proofs.Expr.Parts
import Reckoner.Proofs.Token.Places

namespace Reckoner

open Grammar

/-!
### Stretches
-/

/-- A tree with some groups around it stands for a stretch of tokens. A number that is missing
    stands for none, and so does a parenthesis. A group that 128 others enclose stands for all
    tokens up to its closing parenthesis, or, if that is missing, for its opening parenthesis alone.
    -/
inductive Expr.Covers : Expr → Nat → List Token → Prop where
  | numeral (token : Token) (depth : Nat) : Covers (.numeral token) depth (Token.solid [token])
  | group {opening closing : Token} {inner : Expr} {depth : Nat} {stretch : List Token}
      (hinner : Covers inner (depth + 1) stretch) (hdepth : depth = 128 → closing.text = "") :
      Covers (.group opening inner closing) depth ([opening] ++ stretch ++ Token.solid [closing])
  | hollow {opening hole closing : Token} (inside : List Token) (hopening : opening.kind = .opening)
      (hhole : hole.text = "") (hclosing : closing.text ≠ "") :
      Covers (.group opening (.numeral hole) closing) 128 ([opening] ++ inside ++ [closing])
  | binary {left right : Expr} {operator : Token} {depth : Nat} {front back : List Token}
      (hleft : Covers left depth front) (hright : Covers right depth back) :
      Covers (.binary left operator right) depth (front ++ [operator] ++ back)

/-- A node stands for a stretch of tokens: a leaf for itself, unless it is empty. -/
def Part.Covers (part : Part) (stretch : List Token) : Prop :=
  match part.node with
  | .leaf token => stretch = Token.solid [token]
  | .expr e => e.Covers part.depth stretch

namespace Expr.Covers

variable {e : Expr} {depth : Nat} {stretch : List Token}

/-- The parentheses of the hollow groups of a tree are in its stretch. -/
theorem mem_of_mem_hollows (h : e.Covers depth stretch) {pair : Token × Token}
    (hpair : pair ∈ e.hollows depth) :
    pair.1 ∈ stretch ∧ pair.2 ∈ stretch ∧ pair.1.kind = .opening := by
  induction h with
  | numeral token depth => exact absurd hpair List.not_mem_nil
  | group hinner hdepth ih =>
      rw [hollows_group hdepth] at hpair
      obtain ⟨hfirst, hsecond, hkind⟩ := ih hpair
      exact ⟨List.mem_append_left _ (.tail _ hfirst), List.mem_append_left _ (.tail _ hsecond), hkind⟩
  | hollow inside hopening hhole hclosing =>
      rw [hollows_hollow hclosing, List.mem_singleton] at hpair
      subst hpair
      exact ⟨List.mem_append_left _ List.mem_cons_self, List.mem_append_right _ List.mem_cons_self,
        hopening⟩
  | binary hleft hright ihleft ihright =>
      rcases List.mem_append.mp hpair with hfront | hback
      · obtain ⟨hfirst, hsecond, hkind⟩ := ihleft hfront
        exact ⟨List.mem_append_left _ (List.mem_append_left _ hfirst),
          List.mem_append_left _ (List.mem_append_left _ hsecond), hkind⟩
      · obtain ⟨hfirst, hsecond, hkind⟩ := ihright hback
        exact ⟨List.mem_append_right _ hfirst, List.mem_append_right _ hsecond, hkind⟩

/-- Tokens in front of a stretch are in none of the hollow groups. -/
theorem within_of_before (h : e.Covers depth stretch) {tokens : List Token}
    (hbefore : ∀ token ∈ tokens, ∀ other ∈ stretch, token.position < other.position) :
    ∀ token ∈ tokens, within (e.hollows depth) token.position = false := by
  intro token hmem
  refine within_eq_false_of_le fun pair hpair => Int.le_of_lt ?_
  exact hbefore token hmem pair.1 (h.mem_of_mem_hollows hpair).1

/-- Tokens behind a stretch are in none of the hollow groups. -/
theorem within_of_behind (h : e.Covers depth stretch) {tokens : List Token}
    (hbehind : ∀ other ∈ stretch, ∀ token ∈ tokens, other.position < token.position) :
    ∀ token ∈ tokens, within (e.hollows depth) token.position = false := by
  intro token hmem
  refine within_eq_false_of_ge fun pair hpair => Int.le_of_lt ?_
  exact hbehind pair.2 (h.mem_of_mem_hollows hpair).2.1 token hmem

/-- The tokens of a stretch outside the hollow groups of a tree are the leaves that are not empty. -/
theorem outside_eq (h : e.Covers depth stretch) (hstrung : Token.Strung stretch) :
    Token.outside (e.hollows depth) stretch = Token.solid e.leaves := by
  induction h with
  | numeral token depth => exact Token.outside_eq_self fun _ _ => rfl
  | @group opening closing inner depth stretch hinner hdepth ih =>
      have hascending := hstrung.ascending
      rw [List.pairwise_append, List.pairwise_append] at hascending
      obtain ⟨⟨-, -, hfront⟩, -, hback⟩ := hascending
      have hclosing := hinner.within_of_behind fun other hother =>
        hback other (List.mem_append_right _ hother)
      have hstretch : stretch.Sublist ([opening] ++ stretch ++ Token.solid [closing]) :=
        (List.sublist_append_right _ _).trans (List.sublist_append_left _ _)
      have hne : opening.text ≠ "" := hstrung.text_ne opening List.mem_cons_self
      have hleaves : (Expr.group opening inner closing).leaves =
          [opening] ++ inner.leaves ++ [closing] := rfl
      rw [hollows_group hdepth, hleaves, Token.outside_append, Token.outside_append,
        Token.outside_eq_self (hinner.within_of_before hfront), ih (hstrung.sublist hstretch),
        Token.outside_eq_self hclosing, Token.solid_append, Token.solid_append, Token.solid_of_ne hne]
  | @hollow opening hole closing inside hopening hhole hclosing =>
      have hascending := hstrung.ascending
      rw [List.pairwise_append, List.pairwise_append] at hascending
      obtain ⟨⟨-, -, hfront⟩, -, hback⟩ := hascending
      have hne : opening.text ≠ "" := hstrung.text_ne opening List.mem_cons_self
      -- Of the tokens of a hollow group just the parentheses are not between the parentheses.
      have hinside : Token.outside [(opening, closing)] inside = [] := by
        rw [Token.outside, List.filter_eq_nil_iff]
        intro token hmem
        have hlt := hfront opening List.mem_cons_self token hmem
        have hgt := hback token (List.mem_append_right _ hmem) closing List.mem_cons_self
        simp [within, hlt, hgt]
      have hleaves : (Expr.group opening (.numeral hole) closing).leaves =
          [opening] ++ [hole] ++ [closing] := rfl
      rw [hollows_hollow hclosing, hleaves, Token.outside_append, Token.outside_append, hinside,
        Token.solid_append, Token.solid_append, Token.solid_of_ne hne, Token.solid_of_eq hhole,
        Token.solid_of_ne hclosing]
      simp [Token.outside, within]
  | @binary left right operator depth front back hleft hright ihleft ihright =>
      have hascending := hstrung.ascending
      rw [List.pairwise_append, List.pairwise_append] at hascending
      obtain ⟨⟨-, -, hfront⟩, -, hback⟩ := hascending
      have hbefore := hright.within_of_before fun token hmem =>
        hback token (List.mem_append_left _ hmem)
      have hoperator := hright.within_of_before fun token hmem =>
        hback token (List.mem_append_right _ hmem)
      have hbehind := hleft.within_of_behind fun other hother =>
        hback other (List.mem_append_left _ hother)
      have hsub : front.Sublist (front ++ [operator] ++ back) :=
        (List.sublist_append_left _ _).trans (List.sublist_append_left _ _)
      have hne : operator.text ≠ "" :=
        hstrung.text_ne operator (List.mem_append_left _ (List.mem_append_right _ List.mem_cons_self))
      have hleaves : (Expr.binary left operator right).leaves =
          left.leaves ++ [operator] ++ right.leaves := by
        simp [leaves]
      rw [hollows, hleaves, Token.outside_append, Token.outside_append,
        Token.outside_append_left hbefore, ihleft (hstrung.sublist hsub),
        Token.outside_append_left hoperator, Token.outside_eq_self (hleft.within_of_behind hfront),
        Token.outside_append_right hbehind, ihright (hstrung.sublist (List.sublist_append_right _ _)),
        Token.solid_append, Token.solid_append, Token.solid_of_ne hne]

/-- Every node of a tree that stands for a stretch of tokens stands for a stretch inside it. -/
theorem exists_part_covers (h : e.Covers depth stretch) {part : Part} (hpart : part ∈ e.parts depth) :
    ∃ inner, inner <:+: stretch ∧ part.Covers inner := by
  induction h with
  | numeral token depth =>
      obtain rfl | rfl : part = ⟨.expr (.numeral token), depth⟩ ∨ part = ⟨.leaf token, depth⟩ := by
        simpa [parts] using hpart
      · exact ⟨_, List.infix_refl _, .numeral token depth⟩
      · exact ⟨_, List.infix_refl _, rfl⟩
  | @group opening closing inner depth stretch hinner hdepth ih =>
      rw [parts, List.mem_cons, List.mem_cons, List.mem_append, List.mem_singleton] at hpart
      rcases hpart with rfl | rfl | hpart | rfl
      · exact ⟨_, List.infix_refl _, .group hinner hdepth⟩
      · have hfront : [opening] <:+: [opening] ++ stretch ++ Token.solid [closing] :=
          ⟨[], stretch ++ Token.solid [closing], rfl⟩
        exact ⟨_, (Token.solid_singleton_infix opening).trans hfront, rfl⟩
      · obtain ⟨inside, hcontained, hcovers⟩ := ih hpart
        exact ⟨inside, hcontained.trans ⟨[opening], Token.solid [closing], rfl⟩, hcovers⟩
      · exact ⟨_, (List.suffix_append _ _).isInfix, rfl⟩
  | @hollow opening hole closing inside hopening hhole hclosing =>
      rw [parts, List.mem_cons, List.mem_cons, List.mem_append, List.mem_singleton] at hpart
      rcases hpart with rfl | rfl | hpart | rfl
      · exact ⟨_, List.infix_refl _, .hollow inside hopening hhole hclosing⟩
      · have hfront : [opening] <:+: [opening] ++ inside ++ [closing] :=
          ⟨[], inside ++ [closing], rfl⟩
        exact ⟨_, (Token.solid_singleton_infix opening).trans hfront, rfl⟩
      · -- The empty number stands for no token at all, and so does the leaf in it.
        have hempty : [] = Token.solid [hole] := (Token.solid_of_eq hhole).symm
        obtain rfl | rfl : part = ⟨.expr (.numeral hole), 129⟩ ∨ part = ⟨.leaf hole, 129⟩ := by
          simpa [parts] using hpart
        · refine ⟨[], List.nil_infix, ?_⟩
          rw [hempty]
          exact .numeral hole 129
        · exact ⟨[], List.nil_infix, hempty⟩
      · have hback : [closing] <:+: [opening] ++ inside ++ [closing] :=
          (List.suffix_append _ _).isInfix
        exact ⟨_, (Token.solid_singleton_infix closing).trans hback, rfl⟩
  | @binary left right operator depth front back hleft hright ihleft ihright =>
      rw [parts, List.mem_cons, List.mem_append, List.mem_cons] at hpart
      rcases hpart with rfl | hpart | rfl | hpart
      · exact ⟨_, List.infix_refl _, .binary hleft hright⟩
      · obtain ⟨inside, hcontained, hcovers⟩ := ihleft hpart
        refine ⟨inside, hcontained.trans ⟨[], [operator] ++ back, ?_⟩, hcovers⟩
        simp
      · exact ⟨_, (Token.solid_singleton_infix operator).trans ⟨front, back, rfl⟩, rfl⟩
      · obtain ⟨inside, hcontained, hcovers⟩ := ihright hpart
        exact ⟨inside, hcontained.trans (List.suffix_append _ _).isInfix, hcovers⟩

end Expr.Covers

namespace Part.Covers

variable {part : Part} {stretch : List Token}

/-- The parentheses of the hollow groups under a node are in its stretch. -/
theorem mem_of_mem_hollows (h : part.Covers stretch) {pair : Token × Token}
    (hpair : pair ∈ part.hollows) :
    pair.1 ∈ stretch ∧ pair.2 ∈ stretch ∧ pair.1.kind = .opening := by
  obtain ⟨node, depth⟩ := part
  cases node with
  | leaf token => exact absurd hpair List.not_mem_nil
  | expr e => exact Expr.Covers.mem_of_mem_hollows h hpair

/-- The tokens of a stretch outside the hollow groups under a node are the leaves that are not
    empty. -/
theorem outside_eq (h : part.Covers stretch) (hstrung : Token.Strung stretch) :
    Token.outside part.hollows stretch = part.solid := by
  obtain ⟨node, depth⟩ := part
  cases node with
  | leaf token =>
      obtain rfl : stretch = Token.solid [token] := h
      exact Token.outside_eq_self fun _ _ => rfl
  | expr e => exact Expr.Covers.outside_eq h hstrung

/-- The first of the leaves that are not empty is the first token of the stretch, also where the
    stretch starts with a hollow group. -/
theorem head?_eq (h : part.Covers stretch) (hstrung : Token.Strung stretch) {first : Token}
    (hfirst : first ∈ part.solid.head?) : stretch.head? = some first := by
  rw [← h.outside_eq hstrung] at hfirst
  cases hhead : stretch.head? with
  | none =>
      obtain rfl := List.head?_eq_none_iff.mp hhead
      exact absurd hfirst (by simp [Token.outside])
  | some token =>
      have hkept : within part.hollows token.position = false :=
        within_eq_false_of_le fun _ hpair => hstrung.head?_le hhead (h.mem_of_mem_hollows hpair).1
      obtain ⟨behind, rfl⟩ := List.head?_eq_some_iff.mp hhead
      rw [Token.outside, List.filter_cons_of_pos (by simp [hkept])] at hfirst
      exact hfirst

/-- The last of the leaves that are not empty is the last token of the stretch, also where the
    stretch ends with a hollow group. -/
theorem getLast?_eq (h : part.Covers stretch) (hstrung : Token.Strung stretch) {last : Token}
    (hlast : last ∈ part.solid.getLast?) : stretch.getLast? = some last := by
  rw [← h.outside_eq hstrung] at hlast
  cases htail : stretch.getLast? with
  | none =>
      obtain rfl := List.getLast?_eq_none_iff.mp htail
      exact absurd hlast (by simp [Token.outside])
  | some token =>
      have hkept : within part.hollows token.position = false :=
        within_eq_false_of_ge fun _ hpair =>
          hstrung.le_getLast? htail (h.mem_of_mem_hollows hpair).2.1
      obtain ⟨front, rfl⟩ := List.getLast?_eq_some_iff.mp htail
      rw [Token.outside, List.filter_append, List.filter_cons_of_pos (by simp [hkept]),
        List.filter_nil, List.getLast?_concat] at hlast
      exact hlast

end Part.Covers

/-!
### Reading stretches
-/

/-- A token that is looked for is the first of the tokens if it is not empty, or else it stands for
    none of them. -/
theorem Token.solid_expect_append {tokens : List Token} (stop : Int) {kind : Kind}
    (hkind : kind ≠ .finish) (h : ∀ token ∈ tokens, token.text ≠ "") :
    let found := expect stop kind tokens
    solid [found.token] ++ found.rest = tokens := by
  cases tokens with
  | nil => simp [expect, upcoming, finish, hkind.symm, solid, missing]
  | cons token tokens =>
      by_cases hfound : token.kind = kind
      · have hne : token.text ≠ "" := h token List.mem_cons_self
        simp [expect_of_kind hfound, solid_of_ne hne]
      · simp [expect, upcoming, hfound, solid, missing]

/-- A phrase that is read from some tokens stands for a stretch at their front. Only where a group is
    nested too deep and never closed, tokens behind the stretch are lost with it: all of them. -/
theorem Course.exists_covers {stop : Int} {rank : Rank} {room : Nat} {tokens : List Token}
    {phrase : Phrase} (h : Course stop rank room tokens phrase)
    (hne : ∀ token ∈ tokens, token.text ≠ "") {depth : Nat} (hroom : depth + room = 128) :
    ∃ stretch behind, tokens = stretch ++ behind ∧ phrase.tree.Covers depth stretch ∧
      (phrase.rest = behind ∨ phrase.rest = []) := by
  induction h generalizing depth with
  | @number room tokens hclear =>
      refine ⟨_, _, (Token.solid_expect_append stop (by decide) hne).symm, ?_, .inl rfl⟩
      exact .numeral _ depth
  | @skipped opening behind hopening =>
      obtain rfl : depth = 128 := hroom
      cases hmatching : matching? behind with
      | none =>
          rw [skipGroup_of_matching?_eq_none hmatching]
          refine ⟨[opening], behind, rfl, ?_, .inr rfl⟩
          exact .group (.numeral _ 129) fun _ => rfl
      | some i =>
          obtain ⟨closing, hclosing, -, -⟩ := exists_closing_of_matching? hmatching
          obtain ⟨hi, hget⟩ := List.getElem?_eq_some_iff.mp hclosing
          rw [skipGroup_of_matching? hmatching hclosing]
          refine ⟨[opening] ++ behind.take i ++ [closing], behind.drop (i + 1), ?_, ?_, .inl rfl⟩
          · have hsplit : behind = behind.take i ++ closing :: behind.drop (i + 1) := by
              rw [← hget, ← List.drop_eq_getElem_cons hi, List.take_append_drop]
            simpa using hsplit
          · exact .hollow _ hopening rfl (hne closing (.tail _ (List.mem_of_getElem? hclosing)))
  | @group room opening behind inner hopening hinner hclear ih =>
      have hinside : depth + 1 + room = 128 := by omega
      obtain ⟨stretch, others, rfl, hcovers, hrest⟩ :=
        ih (fun token hmem => hne token (.tail _ hmem)) hinside
      have hdepth : depth = 128 → (expect stop .closing inner.rest).token.text = "" := by omega
      rcases hrest with rfl | hrest
      · have hclosing := Token.solid_expect_append stop (by decide : Kind.closing ≠ .finish)
          fun token hmem => hne token (.tail _ (List.mem_append_right _ hmem))
        refine ⟨_, (expect stop .closing inner.rest).rest, ?_, .group hcovers hdepth, .inl rfl⟩
        conv => lhs; rw [← hclosing]
        simp
      · have hclosing : expect stop .closing inner.rest =
            ⟨.missing .closing stop, [], [.unexpected Kind.finish.name Kind.closing.name]⟩ := by
          rw [hrest]
          rfl
        refine ⟨_, others, ?_, .group hcovers hdepth, .inr ?_⟩
        · rw [hclosing, Token.solid_of_eq rfl, List.append_nil]
          rfl
        · rw [Phrase.enclosed, hclosing]
  | operand h ih => exact ih hne hroom
  | @join rank room tokens behind left right operator hleft hrest hjoins hright ihleft ihright =>
      obtain ⟨front, others, rfl, hfront, hothers⟩ := ihleft hne hroom
      obtain rfl : others = operator :: behind := by
        rcases hothers with hothers | hothers
        · exact hothers.symm.trans hrest
        · rw [hothers] at hrest
          exact absurd hrest (by simp)
      obtain ⟨back, last, rfl, hback, hlast⟩ :=
        ihright (fun token hmem => hne token (List.mem_append_right _ (.tail _ hmem))) hroom
      exact ⟨front ++ [operator] ++ back, last, by simp, .binary hfront hback, hlast⟩

end Reckoner
