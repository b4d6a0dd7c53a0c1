/-
Module: Reckoner.Proofs.Tree.Stray
Layer: Proofs
Purpose: Stray characters, with which no token starts. Each is a bad token of its own, and nothing else
  is. A line in which they are replaced by blanks has the same significant tokens but for the bad ones:
  the blanks may go together with blanks around them, but runs of digits stay apart. As reading leaves
  out the bad tokens as it does the blanks, all that is lost is what was reported for the characters.
Main exports: Text.isStray, Text.cleaned, Partition.filter_bad, Token.significant_cleaned,
  Scanner.reports_eq_faulty, Tree.ofLine_cleaned
-/
import Reckoner.Proofs.Token.Blanks
import Reckoner.Proofs.Tree.Sweep

namespace Reckoner

open Text

namespace Text

/-- Whether no token but a bad one starts with a character. -/
def isStray (c : Char) : Bool :=
  !isDecimal c && !isBlank c && Kind.ofChar c = .bad

/-- What a character is replaced by: a stray one by a space, any other by itself. -/
def clean (c : Char) : Char :=
  if isStray c then ' ' else c

/-- The line with a space in the place of every stray character. -/
def cleaned (line : String) : String :=
  String.ofList (line.toList.map clean)

theorem isStray_eq_false_of_isDecimal {c : Char} (h : isDecimal c = true) : isStray c = false := by
  simp [isStray, h]

theorem isStray_eq_false_of_isBlank {c : Char} (h : isBlank c = true) : isStray c = false := by
  simp [isStray, h]

/-- Of the characters that are neither digits nor blanks, those are stray that have the kind of a bad
    character. -/
theorem isStray_eq_decide {c : Char} (hdecimal : isDecimal c = false) (hblank : isBlank c = false) :
    isStray c = decide (Kind.ofChar c = .bad) := by
  simp [isStray, hdecimal, hblank]

theorem clean_of_isStray {c : Char} (h : isStray c = true) : clean c = ' ' :=
  if_pos h

theorem clean_of_not_isStray {c : Char} (h : isStray c = false) : clean c = c := by
  simp [clean, h]

/-- A digit stays one, and nothing else becomes one. -/
theorem isDecimal_clean (c : Char) : isDecimal (clean c) = isDecimal c := by
  cases hstray : isStray c with
  | false => rw [clean_of_not_isStray hstray]
  | true =>
      have hspace : isDecimal ' ' = false := by decide
      have hdecimal : isDecimal c = false := by
        simp only [isStray, Bool.and_eq_true, Bool.not_eq_true'] at hstray
        exact hstray.1.1
      rw [clean_of_isStray hstray, hspace, hdecimal]

/-- A run without stray characters is left as it is. -/
theorem map_clean_of_not_isStray {run : List Char} (h : ∀ c ∈ run, isStray c = false) :
    run.map clean = run := by
  rw [List.map_congr_left fun c hc => clean_of_not_isStray (h c hc), List.map_id']

/-- What breaks a run of digits breaks it also after the replacement. -/
theorem Breaks.map_clean {text : List Char} (h : Breaks isDecimal text) :
    Breaks isDecimal (text.map clean) := by
  cases text with
  | nil => exact h
  | cons c text => simpa [isDecimal_clean] using h

@[simp] theorem length_cleaned (line : String) : (cleaned line).length = line.length := by
  rw [cleaned, String.length_ofList, List.length_map, String.length_toList]

end Text

/-!
### Bad tokens
-/

/-- The bad tokens of a text that starts at some offset, one for each stray character. -/
def Token.strays (position : Nat) (text : List Char) : List Token :=
  ((text.zipIdx position).filter fun place => isStray place.1).map fun place =>
    plain .bad place.2 (String.ofList [place.1])

namespace Token

/-- There are no bad tokens in a run without stray characters. -/
theorem strays_append_of_not_isStray {run : List Char} (h : ∀ c ∈ run, isStray c = false)
    (position : Nat) (rest : List Char) :
    strays position (run ++ rest) = strays (position + run.length) rest := by
  have hnone : (run.zipIdx position).filter (fun place => isStray place.1) = [] := by
    rw [List.filter_eq_nil_iff]
    intro place hmem
    rw [h place.1 (List.fst_mem_of_mem_zipIdx hmem)]
    simp
  rw [strays, List.zipIdx_append, List.filter_append, hnone, List.nil_append, Nat.add_comm]
  rfl

theorem strays_cons_of_isStray {c : Char} (h : isStray c = true) (position : Nat)
    (rest : List Char) :
    strays position (c :: rest) =
      plain .bad position (String.ofList [c]) :: strays (position + 1) rest := by
  simp [strays, List.zipIdx_cons, h]

end Token

namespace Partition

variable {position : Nat} {text : List Char} {tokens : List Token}

/-- The bad tokens of a text are its stray characters. -/
theorem filter_bad (h : Partition position text tokens) :
    tokens.filter (fun token => token.kind = .bad) = Token.strays position text := by
  induction h with
  | finish position => rfl
  | @number position run rest tokens hne hall _ _ ih =>
      rw [Token.strays_append_of_not_isStray fun c hc => isStray_eq_false_of_isDecimal (hall c hc),
        ← ih]
      rfl
  | @blank position run rest tokens hne hall _ _ ih =>
      rw [Token.strays_append_of_not_isStray fun c hc => isStray_eq_false_of_isBlank (hall c hc),
        ← ih]
      rfl
  | @symbol position c rest tokens hdecimal hblank _ ih =>
      have hstray := isStray_eq_decide hdecimal hblank
      by_cases hkind : Kind.ofChar c = .bad
      · rw [decide_eq_true hkind] at hstray
        rw [List.filter_cons_of_pos (by simpa using hkind), Token.strays_cons_of_isStray hstray, ih,
          hkind]
      · rw [decide_eq_false hkind] at hstray
        have hrest := Token.strays_append_of_not_isStray (List.forall_mem_singleton.mpr hstray)
          position rest
        rw [List.filter_cons_of_neg (by simpa using hkind), ih]
        exact hrest.symm

/-- A text whose stray characters are replaced by spaces has the same significant tokens but for the
    bad ones. -/
theorem exists_cleaned (h : Partition position text tokens) :
    ∃ others, Partition position (text.map clean) others ∧
      others.filter Token.isSignificant =
        (tokens.filter Token.isSignificant).filter fun token => token.kind ≠ .bad := by
  induction h with
  | finish position => exact ⟨_, .finish position, rfl⟩
  | @number position run rest tokens hne hall hbreaks _ ih =>
      obtain ⟨others, hothers, hsame⟩ := ih
      refine ⟨Scanner.numberToken position run :: others, ?_, ?_⟩
      · rw [List.map_append, map_clean_of_not_isStray fun c hc =>
          isStray_eq_false_of_isDecimal (hall c hc)]
        exact .number hne hall hbreaks.map_clean hothers
      · have hnumber := Token.isSignificant_numberToken position run
        rw [List.filter_cons_of_pos hnumber, List.filter_cons_of_pos hnumber,
          List.filter_cons_of_pos (by simp), hsame]
  | @blank position run rest tokens hne hall _ _ ih =>
      obtain ⟨others, hothers, hsame⟩ := ih
      obtain ⟨whole, hwhole, hmerged⟩ := exists_partition_blanks hall hothers
      refine ⟨whole, ?_, hmerged.trans hsame⟩
      rwa [List.map_append, map_clean_of_not_isStray fun c hc =>
        isStray_eq_false_of_isBlank (hall c hc)]
  | @symbol position c rest tokens hdecimal hblank _ ih =>
      obtain ⟨others, hothers, hsame⟩ := ih
      have hsymbol := Token.isSignificant_symbol c position (String.ofList [c])
      have hstray := isStray_eq_decide hdecimal hblank
      by_cases hkind : Kind.ofChar c = .bad
      · rw [decide_eq_true hkind] at hstray
        have hspace : ∀ c ∈ [' '], isBlank c = true := List.all_eq_true.mp (by decide)
        obtain ⟨whole, hwhole, hmerged⟩ := exists_partition_blanks hspace hothers
        refine ⟨whole, ?_, ?_⟩
        · rw [List.map_cons, clean_of_isStray hstray]
          exact hwhole
        · rw [hmerged, hsame, List.filter_cons_of_pos hsymbol,
            List.filter_cons_of_neg (by simpa using hkind)]
      · rw [decide_eq_false hkind] at hstray
        refine ⟨.plain (Kind.ofChar c) position (String.ofList [c]) :: others, ?_, ?_⟩
        · rw [List.map_cons, clean_of_not_isStray hstray]
          exact .symbol hdecimal hblank hothers
        · rw [List.filter_cons_of_pos hsymbol, List.filter_cons_of_pos hsymbol,
            List.filter_cons_of_pos (by simpa using hkind), hsame]

end Partition

/-- A line whose stray characters are replaced by spaces has the same significant tokens but for the
    bad ones. -/
theorem Token.significant_cleaned (line : String) :
    significant (cleaned line) = (significant line).filter fun token => token.kind ≠ .bad := by
  obtain ⟨others, hothers, hsame⟩ :=
    (Scanner.partition_tokens line 0 line.toList).exists_cleaned
  rw [← String.toList_ofList (l := line.toList.map clean)] at hothers
  exact (significant_of_partition hothers).trans hsame

theorem Lexemes.tokens_cleaned (line : String) :
    (ofLine (cleaned line)).tokens = (ofLine line).tokens := by
  rw [tokens_eq_significant, tokens_eq_significant, Token.significant_cleaned, List.filter_filter]
  simp

/-!
### What the scan reports
-/

/-- Whether a token is reported by its scan: it is bad, or a number without a value. -/
def Token.isFaulty (token : Token) : Bool :=
  token.kind = .bad || (token.kind = .number && token.value.isNone)

/-- The report about a token that is reported by the scan of a line. -/
def Scanner.reportOn (line : String) (token : Token) : Report :=
  if token.kind = .bad then .badCharacter token.text else .invalidNumber line

theorem Scanner.reportsOf_eq (line : String) (token : Token) :
    reportsOf line token = if token.isFaulty then [reportOn line token] else [] := by
  unfold reportsOf Token.isFaulty reportOn
  cases hkind : token.kind with
  | number => simp
  | _ => simp

/-- The reports of a scan are those about the faulty tokens, one for each, in their order. -/
theorem Scanner.reports_eq_faulty (line : String) :
    (ofLine line).tokens.reports =
      ((Token.significant line).filter Token.isFaulty).map (reportOn line) := by
  rw [reports_eq_significant]
  induction Token.significant line with
  | nil => rfl
  | cons token tokens ih =>
      rw [List.flatMap_cons, ih, reportsOf_eq]
      cases hfaulty : token.isFaulty with
      | false =>
          rw [List.filter_cons_of_neg (by simp [hfaulty])]
          rfl
      | true =>
          rw [List.filter_cons_of_pos hfaulty]
          rfl

theorem Token.filter_isFaulty (line : String) :
    (significant line).filter isFaulty = (scan line).filter isFaulty := by
  rw [significant, List.filter_filter]
  apply List.filter_congr
  intro token _
  cases hkind : token.kind <;> simp [isFaulty, isSignificant, hkind]

/-- The faulty tokens that are left where the stray characters are replaced are the numbers. -/
theorem Token.filter_isFaulty_cleaned (line : String) :
    (significant (cleaned line)).filter isFaulty =
      ((scan line).filter isFaulty).filter fun token => token.kind ≠ .bad := by
  rw [significant_cleaned, ← filter_isFaulty, List.filter_filter, List.filter_filter]
  apply List.filter_congr
  intro token _
  exact Bool.and_comm _ _

namespace Tree

/-- Replacing every stray character of a line by a space changes only what its scan reports. The stray
    characters are those that are bad tokens. Both lines are read as the same tree, to the same end
    token, and with the same reports behind those of their scans. The scan of the line reports the bad
    characters and the numbers without values, one for each in the order of the tokens; the scan of the
    other line reports the numbers alone, and quotes that line. -/
theorem ofLine_cleaned (line : String) :
    let faulty := (Token.scan line).filter Token.isFaulty
    let numbers := faulty.filter fun token => token.kind ≠ .bad
    (Token.scan line).filter (fun token => token.kind = .bad) = Token.strays 0 line.toList ∧
      (ofLine (cleaned line)).root = (ofLine line).root ∧
      (ofLine (cleaned line)).finish = (ofLine line).finish ∧
      (Scanner.ofLine line).tokens.reports = faulty.map (Scanner.reportOn line) ∧
      (Scanner.ofLine (cleaned line)).tokens.reports =
        numbers.map (fun _ => .invalidNumber (cleaned line)) ∧
      ∃ reports,
        (ofLine line).reports = (Scanner.ofLine line).tokens.reports ++ reports ∧
          (ofLine (cleaned line)).reports =
            (Scanner.ofLine (cleaned line)).tokens.reports ++ reports := by
  intro faulty numbers
  have hlexemes : Lexemes.ofLine (cleaned line) =
      ⟨(Lexemes.ofLine line).tokens, (Lexemes.ofLine line).stop,
        (Scanner.ofLine (cleaned line)).tokens.reports⟩ := by
    have hstop : (Lexemes.ofLine (cleaned line)).stop = (Lexemes.ofLine line).stop := by
      rw [Lexemes.stop_ofLine, Lexemes.stop_ofLine, length_cleaned]
    rw [← Lexemes.tokens_cleaned, ← hstop]
    rfl
  refine ⟨(Scanner.partition_tokens line 0 line.toList).filter_bad, ?_, ?_, ?_, ?_, ?_⟩
  · rw [ofLine, hlexemes]
    rfl
  · rw [ofLine, hlexemes]
    rfl
  · rw [Scanner.reports_eq_faulty, Token.filter_isFaulty]
  · rw [Scanner.reports_eq_faulty, Token.filter_isFaulty_cleaned]
    apply List.map_congr_left
    intro token hmem
    have hkind : token.kind ≠ .bad := of_decide_eq_true (List.mem_filter.mp hmem).2
    exact if_neg hkind
  · refine ⟨(sweep (Lexemes.ofLine line).stop .operand 0 (Lexemes.ofLine line).tokens).reports,
      (ofLexemes_eq_sweep _).2.2, ?_⟩
    rw [ofLine, (ofLexemes_eq_sweep _).2.2, hlexemes]

end Tree

end Reckoner
