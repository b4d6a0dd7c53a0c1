/-
Module: Reckoner.Proofs.Tree.Acceptance
Layer: Proofs
Purpose: Which lines are read without a diagnostic. They are those of which every character can be
  part of a token, every maximal run of digits denotes a word, and the tokens between the blanks are
  a sentence of the grammar in which groups are not nested too deep; and the tree that is read is
  then the tree of the sentence.
Main exports: Lexemes.stop_ofLine, Lexemes.withFinish_ofLine, Tree.ofLexemes_of_leaves,
  Tree.exists_leaves_of_reports, Tree.root_of_reports_eq_nil, Tree.diagnostics_eq_nil_iff
-/
import Reckoner.Proofs.Grammar.Unambiguous
import Reckoner.Proofs.Token.Faultless

namespace Reckoner

open Grammar Text

namespace Lexemes

theorem stop_ofLine (line : String) : (ofLine line).stop = (line.length : Nat) := by
  have hlast := Scanner.position_last line 0 line.toList
  rw [Nat.zero_add, String.length_toList] at hlast
  exact congrArg Nat.cast hlast

/-- The lexemes of a line are its tokens but for blanks, bad characters and the end. -/
theorem mem_tokens_ofLine_iff (line : String) (token : Token) :
    token ∈ (ofLine line).tokens ↔
      token ∈ Token.scan line ∧ token.kind.isSkipped = false ∧ token.kind ≠ .finish := by
  simp [ofLine, Token.scan]

/-- The lexemes of a line and its end token are its tokens but for blanks and bad characters. -/
theorem withFinish_ofLine (line : String) :
    (ofLine line).withFinish = (Token.scan line).filter fun token => !token.kind.isSkipped := by
  obtain ⟨front, hscan, hfront⟩ :=
    (Scanner.partition_tokens line 0 line.toList).exists_append_finish
  have hstop : (ofLine line).stop = (0 + line.toList.length : Nat) := by
    rw [stop_ofLine, Nat.zero_add, String.length_toList]
  have htokens : (ofLine line).tokens = front.filter fun token => !token.kind.isSkipped := by
    simp only [ofLine, Scanner.ofLine, hscan, List.filter_append]
    rw [List.filter_cons_of_neg (by simp [Token.finish]), List.filter_nil, List.append_nil]
    apply List.filter_congr
    intro token hmem
    simp [hfront token hmem]
  rw [withFinish, htokens, hstop, Token.scan, Scanner.ofLine, hscan, List.filter_append,
    List.filter_cons_of_pos (by simp [Token.finish, Kind.isSkipped]), List.filter_nil]

end Lexemes

namespace Tree

/-- If the lexemes of a line are the leaves of a tree of the grammar for whose groups there is room,
    that tree is read, and nothing is reported beyond what scanning reports. -/
theorem ofLexemes_of_leaves {lexemes : Lexemes} {e : Expr} (h : e.Grammatical)
    (hnesting : e.nesting ≤ nestingLimit) (hleaves : lexemes.tokens = e.leaves) :
    ofLexemes lexemes = ⟨e, Token.finish lexemes.stop, lexemes.reports⟩ := by
  have hread := read_leaves lexemes.stop h hnesting (clear_nil Kind.isOperator)
  rw [List.append_nil, ← hleaves] at hread
  simp [ofLexemes, hread, expect, upcoming, Token.finish, Token.plain]

/-- If nothing is reported, nothing was reported while scanning, and the lexemes are the leaves of a
    tree of the grammar for whose groups there is room. -/
theorem exists_leaves_of_reports {lexemes : Lexemes}
    (hfinish : ∀ token ∈ lexemes.tokens, token.kind ≠ .finish)
    (h : (ofLexemes lexemes).reports = []) :
    lexemes.reports = [] ∧
      ∃ e : Expr, e.Grammatical ∧ e.nesting ≤ nestingLimit ∧ lexemes.tokens = e.leaves := by
  simp only [ofLexemes, List.append_eq_nil_iff] at h
  obtain ⟨⟨hscan, hread⟩, hend⟩ := h
  obtain ⟨e, rest, hgrammatical, hnesting, htokens, hrest⟩ :=
    Grammar.exists_leaves_of_reports hread
  have hrestFinish : ∀ token ∈ rest, token.kind ≠ .finish := by
    intro token htoken
    exact hfinish token (by simp [htokens, htoken])
  rw [htokens, read_leaves lexemes.stop hgrammatical hnesting hrest,
    reports_expect_finish_eq_nil_iff hrestFinish] at hend
  rw [hend, List.append_nil] at htokens
  exact ⟨hscan, e, hgrammatical, hnesting, htokens⟩

/-- A line is read without a report exactly if it is scanned without one and its lexemes are the
    leaves of a tree of the grammar for whose groups there is room. -/
theorem reports_ofLine_eq_nil_iff (line : String) :
    (ofLine line).reports = [] ↔
      (Lexemes.ofLine line).reports = [] ∧
        ∃ e : Expr, e.Grammatical ∧ e.nesting ≤ nestingLimit ∧
          (Lexemes.ofLine line).tokens = e.leaves := by
  constructor
  · apply exists_leaves_of_reports
    intro token htoken
    exact ((Lexemes.mem_tokens_ofLine_iff line token).mp htoken).2.2
  · rintro ⟨hscan, e, hgrammatical, hnesting, hleaves⟩
    rw [ofLine, ofLexemes_of_leaves hgrammatical hnesting hleaves, hscan]

/-!
### Sentences
-/

/-- The lexemes of a line that is scanned without a report are its significant tokens. -/
theorem tokens_ofLine_eq_significant {line : String} (h : (Lexemes.ofLine line).reports = []) :
    (Lexemes.ofLine line).tokens = Token.significant line := by
  apply List.filter_congr
  intro token htoken
  have hbad := Scanner.kind_ne_bad_of_mem_scan h htoken
  cases hkind : token.kind <;> simp_all [Kind.isSkipped, Token.isSignificant]

/-- The root of a line that is read without a report is a tree of the grammar, there is room for its
    groups, and its leaves are the significant tokens of the line. -/
theorem root_of_reports_eq_nil {line : String} (h : (ofLine line).reports = []) :
    (ofLine line).root.Grammatical ∧ (ofLine line).root.nesting ≤ nestingLimit ∧
      (ofLine line).root.leaves = Token.significant line := by
  obtain ⟨hscan, e, hgrammatical, hnesting, hleaves⟩ := (reports_ofLine_eq_nil_iff line).mp h
  have hroot : (ofLine line).root = e := by
    rw [ofLine, ofLexemes_of_leaves hgrammatical hnesting hleaves]
  rw [hroot, ← hleaves, tokens_ofLine_eq_significant hscan]
  exact ⟨hgrammatical, hnesting, rfl⟩

/-- The lexemes of a line that is read without a report are the leaves of its root. -/
theorem leaves_root_of_reports_eq_nil {line : String} (h : (ofLine line).reports = []) :
    (ofLine line).root.leaves = (Lexemes.ofLine line).tokens := by
  have hscan := ((reports_ofLine_eq_nil_iff line).mp h).1
  rw [(root_of_reports_eq_nil h).2.2, tokens_ofLine_eq_significant hscan]

/-- The root of a line that is read without a report is the tree of a derivation of its significant
    tokens. -/
theorem exists_derivation_of_reports_eq_nil {line : String} (h : (ofLine line).reports = []) :
    ∃ derivation : Derivation nestingLimit,
      derivation.yield = Token.significant line ∧ derivation.tree = (ofLine line).root := by
  obtain ⟨hgrammatical, hnesting, hleaves⟩ := root_of_reports_eq_nil h
  obtain ⟨derivation, hroot⟩ :=
    (exists_derivation_iff nestingLimit _).mpr ⟨hgrammatical, hnesting⟩
  exact ⟨derivation, by rw [← leaves_tree, hroot, hleaves], hroot⟩

/-- A line is read without a diagnostic exactly if its characters are blanks, digits and symbols,
    its maximal runs of digits denote words, and its tokens between the blanks are derived by the
    grammar and have no group that lies inside more than 127 others. -/
theorem diagnostics_eq_nil_iff (line : String) :
    (ofLine line).diagnostics = [] ↔
      (∀ c ∈ line.toList, isBlank c = true ∨ isDecimal c = true ∨ c ∈ symbols) ∧
        (∀ run, IsMaximalRun isDecimal line.toList run → Numeral.DenotesWord run) ∧
        (∃ (room : Nat) (derivation : Derivation room), derivation.yield = Token.significant line) ∧
        NestedWithin 128 (Token.significant line) := by
  rw [diagnostics, List.map_eq_nil_iff]
  constructor
  · intro h
    have hscan := ((reports_ofLine_eq_nil_iff line).mp h).1
    obtain ⟨hcharacters, hruns⟩ := (Scanner.reports_eq_nil_iff line).mp hscan
    obtain ⟨derivation, hyield, -⟩ := exists_derivation_of_reports_eq_nil h
    refine ⟨hcharacters, hruns, ⟨nestingLimit, derivation, hyield⟩, ?_⟩
    rw [← hyield]
    exact (nestedWithin_yield_iff derivation nestingLimit).mpr (grammatical_tree derivation).2
  · rintro ⟨hcharacters, hruns, ⟨room, derivation, hyield⟩, hwithin⟩
    have hscan := (Scanner.reports_eq_nil_iff line).mpr ⟨hcharacters, hruns⟩
    rw [reports_ofLine_eq_nil_iff]
    refine ⟨hscan, derivation.tree, (grammatical_tree derivation).1, ?_, ?_⟩
    · rw [← hyield] at hwithin
      exact (nestedWithin_yield_iff derivation nestingLimit).mp hwithin
    · rw [tokens_ofLine_eq_significant hscan, leaves_tree, hyield]

end Tree

end Reckoner
