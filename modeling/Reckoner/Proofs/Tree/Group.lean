/-
Module: Reckoner.Proofs.Tree.Group
Layer: Proofs
Purpose: What is inside a group that is nested too deep does not matter. The group is left out up to
  its matching parenthesis, and reading goes on behind it with as many groups open as before. So two
  lines that differ in the content of such a group only are read as the same tree, the tokens and the
  reports behind the content being moved.
Main exports: Token.placeless, Lexemes.tokens_group, Tree.SkipsAt, Tree.skipsAt_iff_reaches,
  Tree.ofLine_group, Tree.AgreeAround, Tree.group_opaque
-/
import Reckoner.Proofs.Expr.Relabel
import Reckoner.Proofs.Tree.Resume
import Reckoner.Proofs.Tree.Shape

namespace Reckoner

open Grammar

/-- A token without its place. -/
def Token.placeless (token : Token) : Token :=
  { token with position := 0 }

@[simp] theorem Token.kind_placeless (token : Token) : token.placeless.kind = token.kind := rfl

@[simp] theorem Token.placeless_moved (shift : Int) (token : Token) :
    (token.moved shift).placeless = token.placeless := rfl

@[simp] theorem Token.placeless_plain (kind : Kind) (position : Int) (text : String) :
    (plain kind position text).placeless = plain kind 0 text := rfl

@[simp] theorem Token.placeless_missing (kind : Kind) (position : Int) :
    (missing kind position).placeless = missing kind 0 := rfl

/-!
### Lines with a group
-/

/-- A group in a line has its parentheses and the lexemes of its content, which are moved, between
    those of the texts around it. -/
theorem Lexemes.tokens_group (a x b : String) :
    (ofLine (a ++ "(" ++ x ++ ")" ++ b)).tokens =
      (ofLine a).tokens ++ .plain .opening a.length "(" ::
        ((ofLine x).tokens.map (Token.moved (a.length + 1 : Nat)) ++
          .plain .closing (a.length + 1 + x.length : Nat) ")" ::
            (ofLine b).tokens.map (Token.moved (a.length + 1 + x.length + 1 : Nat))) := by
  have hopening : (ofLine (a ++ "(" ++ x)).tokens = (ofLine a).tokens ++
      .plain .opening a.length "(" :: (ofLine x).tokens.map (Token.moved (a.length + 1 : Nat)) :=
    tokens_append_symbol (by decide) a x
  have hclosing : (ofLine (a ++ "(" ++ x ++ ")" ++ b)).tokens = (ofLine (a ++ "(" ++ x)).tokens ++
      .plain .closing (a ++ "(" ++ x).length ")" ::
        (ofLine b).tokens.map (Token.moved ((a ++ "(" ++ x).length + 1 : Nat)) :=
    tokens_append_symbol (by decide) (a ++ "(" ++ x) b
  have hlength : (a ++ "(" ++ x).length = a.length + 1 + x.length := by
    rw [String.length_append, String.length_append]
    rfl
  rw [hclosing, hopening, hlength, List.append_assoc, List.cons_append]

/-- The lexemes in front of a group are in front of its opening parenthesis, and those of its content
    and behind it are behind that parenthesis. -/
theorem Lexemes.position_of_mem_group (a x b : String) :
    (∀ token ∈ (ofLine a).tokens, token.position < a.length) ∧
      ∀ token ∈ (ofLine x).tokens.map (Token.moved (a.length + 1 : Nat)) ++
          .plain .closing (a.length + 1 + x.length : Nat) ")" ::
            (ofLine b).tokens.map (Token.moved (a.length + 1 + x.length + 1 : Nat)),
        (a.length : Int) < token.position := by
  have hordered := pairwise_tokens (a ++ "(" ++ x ++ ")" ++ b)
  rw [tokens_group, List.pairwise_append] at hordered
  obtain ⟨-, hbehind, hbefore⟩ := hordered
  constructor
  · intro token hmem
    exact hbefore token hmem _ List.mem_cons_self
  · intro token hmem
    exact List.rel_of_pairwise_cons hbehind hmem

/-- A line with a group ends behind the text that follows the group. -/
theorem Lexemes.stop_group (a x b : String) :
    (ofLine (a ++ "(" ++ x ++ ")" ++ b)).stop =
      (b.length : Int) + (a.length + 1 + x.length + 1 : Nat) := by
  have hlength : (a ++ "(" ++ x ++ ")" ++ b).length = a.length + 1 + x.length + 1 + b.length := by
    simp only [String.length_append]
    rfl
  rw [stop_ofLine, hlength]
  omega

/-- Opening parentheses are the lexemes of a line that is made of them. -/
theorem Lexemes.tokens_replicate (n : Nat) :
    let line := String.ofList (List.replicate n '(')
    (∀ token ∈ (ofLine line).tokens, token.kind = .opening) ∧ (ofLine line).tokens.length = n := by
  have hnone : (ofLine "").tokens = [] := by decide +kernel
  induction n with
  | zero =>
      intro line
      have hline : line = "" := rfl
      simp [hline, hnone]
  | succ n ih =>
      obtain ⟨hall, hlength⟩ := ih
      have hline : String.ofList (List.replicate (n + 1) '(') =
          String.ofList (List.replicate n '(') ++ String.ofList ['('] ++ "" := by
        rw [List.replicate_succ', String.ofList_append, String.append_empty]
      have htokens := tokens_append_symbol (show '(' ∈ Text.symbols by decide)
        (String.ofList (List.replicate n '(')) ""
      rw [← hline, hnone, List.map_nil] at htokens
      refine ⟨?_, ?_⟩
      · intro token hmem
        rw [htokens] at hmem
        rcases List.mem_append.mp hmem with hfront | hlast
        · exact hall token hfront
        · rw [List.mem_singleton.mp hlast]
          rfl
      · rw [htokens, List.length_append, hlength]
        rfl

theorem Scanner.tooDeep_not_mem_reports (line : String) (position limit : Int) :
    .tooDeep position limit ∉ (ofLine line).tokens.reports := by
  intro hmem
  have hreports : (ofLine line).tokens.reports =
      (ofLine line).tokens.tokens.flatMap (reportsOf line) := reports_tokens line 0 line.toList
  rw [hreports] at hmem
  obtain ⟨token, -, htoken⟩ := List.mem_flatMap.mp hmem
  unfold reportsOf at htoken
  split at htoken
  · split at htoken
    · simp at htoken
    · simp at htoken
  · simp at htoken
  · simp at htoken

namespace Tree

/-- The group that starts at some place is left out, since it is nested too deep. -/
def SkipsAt (tree : Tree) (start : Nat) : Prop :=
  .tooDeep start 128 ∈ tree.reports

/-- A group is left out exactly if the sweep comes to it, over the text in front of it, while 128
    groups are open. This does not depend on what is in the group or behind it. -/
theorem skipsAt_iff_reaches (a x b : String) :
    (ofLine (a ++ "(" ++ x ++ ")" ++ b)).SkipsAt a.length ↔
      Sweep.Reaches (.plain .opening a.length "(") .operand 0 (Lexemes.ofLine a).tokens := by
  rw [SkipsAt, ofLine, (ofLexemes_eq_sweep _).2.2, Lexemes.tokens_group]
  constructor
  · intro h
    have hswept := (List.mem_append.mp h).resolve_left (Scanner.tooDeep_not_mem_reports _ _ _)
    obtain ⟨hbefore, hbehind⟩ := Lexemes.position_of_mem_group a x b
    refine reaches_of_tooDeep rfl (Nat.zero_le 128) ?_ ?_ hswept
    · intro token hmem
      exact Int.ne_of_lt (hbefore token hmem)
    · intro token hmem
      exact Int.ne_of_gt (hbehind token hmem)
  · rintro ⟨leaves, reports, hreaches⟩
    have hreport := tooDeep_mem_sweep (Token.kind_plain .opening a.length "(")
    rw [hreaches]
    exact List.mem_append_right _ (List.mem_append_right _ (hreport _ _))

/-- Behind 128 opening parentheses every group is left out. -/
theorem skipsAt_replicate (x b : String) :
    let a := String.ofList (List.replicate 128 '(')
    (ofLine (a ++ "(" ++ x ++ ")" ++ b)).SkipsAt a.length := by
  intro a
  obtain ⟨hopenings, hlength⟩ := Lexemes.tokens_replicate 128
  rw [skipsAt_iff_reaches]
  refine ⟨(Lexemes.ofLine a).tokens, [], ?_⟩
  intro stop behind
  have hswept := sweep_openings hopenings (Nat.le_of_eq ((Nat.zero_add _).trans hlength)) stop
    (.plain .opening a.length "(" :: behind)
  rw [hlength] at hswept
  exact hswept

/-- A line on which a group with balanced content is left out. What is handed out in front of the
    group is the same for every content, and so is, but for its place, what is handed out behind it. -/
theorem ofLine_group {a x b : String} (hx : Text.Balanced x.toList) {leaves : List Token}
    {reports : List Report}
    (hreaches : ∀ stop behind,
      sweep stop .operand 0
          ((Lexemes.ofLine a).tokens ++ .plain .opening a.length "(" :: behind) =
        (sweep stop .operand 128 (.plain .opening a.length "(" :: behind)).after leaves reports) :
    let line := a ++ "(" ++ x ++ ")" ++ b
    let behind := (sweep b.length .operator 128 (Lexemes.ofLine b).tokens).moved
      (a.length + 1 + x.length + 1 : Nat)
    ∃ hole,
      (ofLine line).root.leaves = leaves ++
          [.plain .opening a.length "(", .missing .number hole,
            .plain .closing (a.length + 1 + x.length : Nat) ")"] ++ behind.leaves ∧
        (ofLine line).finish = behind.finish ∧
        (ofLine line).reports = (Scanner.ofLine line).tokens.reports ++ reports ++
          .tooDeep a.length 128 :: behind.reports := by
  intro line behind
  have hinner := (Lexemes.balanced_tokens hx).map_moved (a.length + 1 : Nat)
  have hswept : ∃ hole, sweep (Lexemes.ofLine line).stop .operand 0 (Lexemes.ofLine line).tokens =
      behind.after (leaves ++ [.plain .opening a.length "(", .missing .number hole,
        .plain .closing (a.length + 1 + x.length : Nat) ")"])
        (reports ++ [.tooDeep a.length 128]) := by
    obtain ⟨hole, hskip⟩ := sweep_balanced (Token.kind_plain .opening a.length "(")
      (Token.kind_plain .closing (a.length + 1 + x.length : Nat) ")") hinner
      (Lexemes.ofLine line).stop
      ((Lexemes.ofLine b).tokens.map (Token.moved (a.length + 1 + x.length + 1 : Nat)))
    refine ⟨hole, ?_⟩
    rw [Lexemes.tokens_group, hreaches, hskip, Sweep.Output.after_after, Lexemes.stop_group,
      sweep_moved]
    rfl
  obtain ⟨hole, hswept⟩ := hswept
  obtain ⟨hleaves, hfinish, hreports⟩ := ofLexemes_eq_sweep (Lexemes.ofLine line)
  rw [hswept] at hleaves hfinish hreports
  refine ⟨hole, hleaves, hfinish, ?_⟩
  simp only [ofLine, hreports, Sweep.Output.after, List.append_assoc]
  rfl

/-!
### Two lines
-/

/-- Two lines are read alike, but for what is in a group that starts at the same place of both and is
    left out. The trees are the same but for the places of tokens. What is in front of the group and
    its opening parenthesis are at the same places; an empty number that stands for the content may
    be at any place, and the closing parenthesis and all behind it are `shift` characters further on.
    Behind the reports of their scans, which read the content too, the lines have the same reports
    but for the places of those behind the group. -/
structure AgreeAround (start : Nat) (shift : Int) (one other : String) : Prop where
  root : (ofLine one).root.map Token.placeless = (ofLine other).root.map Token.placeless
  finish : (ofLine other).finish = (ofLine one).finish.moved shift
  leaves : ∃ front hole place close behind,
    (ofLine one).root.leaves = front ++
      [.plain .opening start "(", .missing .number hole, .plain .closing close ")"] ++ behind ∧
    (ofLine other).root.leaves = front ++
      [.plain .opening start "(", .missing .number place, .plain .closing (close + shift) ")"] ++
        behind.map (Token.moved shift)
  reports : ∃ early late,
    (ofLine one).reports = (Scanner.ofLine one).tokens.reports ++ early ++
      .tooDeep start 128 :: late ∧
    (ofLine other).reports = (Scanner.ofLine other).tokens.reports ++ early ++
      .tooDeep start 128 :: late.map (Report.moved shift)

/-- Lines that differ in the content of a group that is left out are read alike. -/
theorem SkipsAt.agreeAround {a x y b : String}
    (h : (ofLine (a ++ "(" ++ x ++ ")" ++ b)).SkipsAt a.length) (hx : Text.Balanced x.toList)
    (hy : Text.Balanced y.toList) :
    AgreeAround a.length ((y.length : Int) - x.length) (a ++ "(" ++ x ++ ")" ++ b)
      (a ++ "(" ++ y ++ ")" ++ b) := by
  obtain ⟨leaves, reports, hreaches⟩ := (skipsAt_iff_reaches a x b).mp h
  obtain ⟨hole, hleaves, hfinish, hreports⟩ := ofLine_group (b := b) hx hreaches
  obtain ⟨place, hothers, hend, hmore⟩ := ofLine_group (b := b) hy hreaches
  have hshift : ((a.length + 1 + y.length + 1 : Nat) : Int) =
      (a.length + 1 + x.length + 1 : Nat) + ((y.length : Int) - x.length) := by omega
  have hclosing : ((a.length + 1 + y.length : Nat) : Int) =
      (a.length + 1 + x.length : Nat) + ((y.length : Int) - x.length) := by omega
  rw [hshift, ← Sweep.Output.moved_moved] at hothers hend hmore
  rw [hclosing] at hothers
  refine ⟨?_, hend.trans (congrArg (Token.moved _) hfinish.symm), ?_, ?_⟩
  · apply Expr.eq_of_leaves_eq
    · exact (Expr.grammatical_map_iff Token.kind_placeless _).mpr (grammatical_root _)
    · exact (Expr.grammatical_map_iff Token.kind_placeless _).mpr (grammatical_root _)
    · rw [Expr.leaves_map, Expr.leaves_map, hleaves, hothers]
      simp [Sweep.Output.moved, Function.comp_def]
  · exact ⟨leaves, hole, place, _, _, hleaves, hothers⟩
  · exact ⟨reports, _, hreports, hmore⟩

/-- A group that is nested too deep is opaque. Wherever a group starts while there is room for none,
    it reaches to the first token behind its parenthesis that closes as many groups as were opened
    from this parenthesis on, or to the end of the line if there is no such token. It is reported
    once, and once more if it is not closed; there is still room for no group behind it, and
    reading goes on there. So if such a group is left out of a line and its content is replaced by
    any other, both being balanced, then it is left out again and the rest is read alike. -/
theorem group_opaque :
    (∀ (stop : Int) (opening : Token) (behind : List Token), opening.kind = .opening →
      let hole := Expr.numeral (.missing .number (upcoming stop behind).position)
      let skipped := (primary stop 0).read (opening :: behind)
      (∀ i, matching? behind = some i → ∃ closing, behind[i]? = some closing ∧
        closing.kind = .closing ∧
        skipped = ⟨.group opening hole closing, behind.drop (i + 1),
          [.tooDeep opening.position 128]⟩) ∧
      (matching? behind = none →
        skipped = ⟨.group opening hole (.missing .closing stop), [],
          [.tooDeep opening.position 128, .unexpected Kind.finish.name Kind.closing.name]⟩) ∧
      (factor stop 0).read (opening :: behind) =
        (Reader.chainFrom Kind.isMultiplicative (primary stop 0) skipped.tree
          skipped.rest).after skipped.reports ∧
      sweep stop .operand 128 (opening :: behind) =
        (sweep stop .operator 128 skipped.rest).after skipped.tree.leaves skipped.reports) ∧
    ∀ a x y b : String, Text.Balanced x.toList → Text.Balanced y.toList →
      let one := a ++ "(" ++ x ++ ")" ++ b
      let other := a ++ "(" ++ y ++ ")" ++ b
      (ofLine one).SkipsAt a.length →
        (ofLine other).SkipsAt a.length ∧
          AgreeAround a.length ((y.length : Int) - x.length) one other := by
  constructor
  · intro stop opening behind hopening hole skipped
    have hskipped : skipped = skipGroup stop opening behind :=
      read_primary_zero_of_opening stop hopening behind
    refine ⟨?_, ?_, rfl, ?_⟩
    · intro i hmatching
      obtain ⟨closing, hclosing, hkind, -⟩ := exists_closing_of_matching? hmatching
      exact ⟨closing, hclosing, hkind, hskipped.trans (skipGroup_of_matching? hmatching hclosing)⟩
    · intro hmatching
      exact hskipped.trans (skipGroup_of_matching?_eq_none hmatching)
    · rw [hskipped]
      exact sweep_skipGroup hopening (Nat.le_refl 128)
  · intro a x y b hx hy one other h
    have hreaches := (skipsAt_iff_reaches a x b).mp h
    exact ⟨(skipsAt_iff_reaches a y b).mpr hreaches, h.agreeAround hx hy⟩

/-- A number, and a group with a sum that lacks an operand, inside of 128 groups and one more. -/
theorem group_opaque_sum :
    let a := String.ofList (List.replicate 128 '(')
    let b := ")*3"
    (ofLine (a ++ "(" ++ "1" ++ ")" ++ b)).SkipsAt a.length ∧
      (ofLine (a ++ "(" ++ "(2)+" ++ ")" ++ b)).SkipsAt a.length ∧
      AgreeAround a.length 3 (a ++ "(" ++ "1" ++ ")" ++ b) (a ++ "(" ++ "(2)+" ++ ")" ++ b) := by
  intro a b
  have h : (ofLine (a ++ "(" ++ "1" ++ ")" ++ b)).SkipsAt a.length := skipsAt_replicate "1" b
  exact ⟨h, group_opaque.2 a "1" "(2)+" b (by decide) (by decide) h⟩

end Tree

end Reckoner
