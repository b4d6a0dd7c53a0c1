/-
Module: Reckoner.Proofs.Token.Partition
Layer: Proofs
Purpose: Scanning cuts a text into its longest tokens. `Partition` says what that means without
  saying how it is done: maximal runs of digits, maximal runs of blanks and single other characters,
  each at its offset, and the end token behind them. The scanner gives a partition, and a text has
  no other. What a scan reports and where it ends are read off the partition.
Main exports: Partition, Scanner.partition_tokens, Partition.tokens_eq, Scanner.reports_tokens,
  Scanner.position_last, Partition.occurs, Partition.number_mem_iff, Token.significant,
  exists_partition_blanks
-/
import Reckoner.Proofs.Text.Run
import Reckoner.Token.Scan

namespace Reckoner

open Text

/-- The tokens are those of the text that starts at an offset: every run of digits and every run of
    blanks is as long as it can be, every other character is a token of its own, and the end token
    closes the list. -/
inductive Partition : Nat → List Char → List Token → Prop where
  | finish (position : Nat) : Partition position [] [Token.finish position]
  | number {position : Nat} {run rest : List Char} {tokens : List Token} :
      run ≠ [] → (∀ c ∈ run, isDecimal c = true) → Breaks isDecimal rest →
      Partition (position + run.length) rest tokens →
      Partition position (run ++ rest) (Scanner.numberToken position run :: tokens)
  | blank {position : Nat} {run rest : List Char} {tokens : List Token} :
      run ≠ [] → (∀ c ∈ run, isBlank c = true) → Breaks isBlank rest →
      Partition (position + run.length) rest tokens →
      Partition position (run ++ rest)
        (Token.plain .blank position (String.ofList run) :: tokens)
  | symbol {position : Nat} {c : Char} {rest : List Char} {tokens : List Token} :
      isDecimal c = false → isBlank c = false →
      Partition (position + 1) rest tokens →
      Partition position (c :: rest)
        (Token.plain (Kind.ofChar c) position (String.ofList [c]) :: tokens)

/-!
### Single tokens
-/

theorem ofChar_ne_number (c : Char) : Kind.ofChar c ≠ .number := by
  unfold Kind.ofChar
  split
  all_goals decide

theorem ofChar_ne_blank (c : Char) : Kind.ofChar c ≠ .blank := by
  unfold Kind.ofChar
  split
  all_goals decide

/-- A character has never the kind of the end of a text. -/
theorem ofChar_ne_finish (c : Char) : Kind.ofChar c ≠ .finish := by
  unfold Kind.ofChar
  split
  all_goals decide

/-- The division sign is the only character of its kind. -/
theorem ofChar_eq_slash_iff (c : Char) : Kind.ofChar c = .slash ↔ c = '/' := by
  constructor
  · intro h
    unfold Kind.ofChar at h
    split at h
    all_goals first | rfl | exact absurd h (by decide)
  · rintro rfl
    rfl

namespace Token

@[simp] theorem kind_plain (kind : Kind) (position : Int) (text : String) :
    (plain kind position text).kind = kind := rfl

@[simp] theorem position_plain (kind : Kind) (position : Int) (text : String) :
    (plain kind position text).position = position := rfl

@[simp] theorem text_plain (kind : Kind) (position : Int) (text : String) :
    (plain kind position text).text = text := rfl

@[simp] theorem value_plain (kind : Kind) (position : Int) (text : String) :
    (plain kind position text).value = none := rfl

end Token

namespace Scanner

@[simp] theorem kind_numberToken (position : Nat) (run : List Char) :
    (numberToken position run).kind = .number := rfl

@[simp] theorem position_numberToken (position : Nat) (run : List Char) :
    (numberToken position run).position = position := rfl

@[simp] theorem text_numberToken (position : Nat) (run : List Char) :
    (numberToken position run).text = String.ofList run := rfl

@[simp] theorem value_numberToken (position : Nat) (run : List Char) :
    (numberToken position run).value = Numeral.decode run := rfl

/-- A token and what is behind it make up the text that was scanned. -/
theorem text_munch_append (position : Nat) (c : Char) (text : List Char) :
    (munch position c text).1.text.toList ++ (munch position c text).2 = c :: text := by
  unfold munch
  split
  · simp [List.takeWhile_append_dropWhile]
  · split
    · simp [Token.plain, List.takeWhile_append_dropWhile]
    · simp [Token.plain]

/-- The first token of a text that starts with a maximal run of digits. -/
theorem munch_number (position : Nat) {c : Char} {run rest : List Char}
    (hall : ∀ d ∈ c :: run, isDecimal d = true) (hbreaks : Breaks isDecimal rest) :
    munch position c (run ++ rest) = (numberToken position (c :: run), rest) := by
  have hc : isDecimal c = true := hall c (by simp)
  have hrun : ∀ d ∈ run, isDecimal d = true := fun d hd => hall d (by simp [hd])
  rw [munch, if_pos hc, takeWhile_append_of_breaks hrun hbreaks,
    dropWhile_append_of_breaks hrun hbreaks]

/-- The first token of a text that starts with a maximal run of blanks. -/
theorem munch_blank (position : Nat) {c : Char} {run rest : List Char}
    (hall : ∀ d ∈ c :: run, isBlank d = true) (hbreaks : Breaks isBlank rest) :
    munch position c (run ++ rest) =
      (Token.plain .blank position (String.ofList (c :: run)), rest) := by
  have hc : isBlank c = true := hall c (by simp)
  have hrun : ∀ d ∈ run, isBlank d = true := fun d hd => hall d (by simp [hd])
  have hdecimal : ¬ isDecimal c = true := by simp [isDecimal_eq_false_of_isBlank hc]
  rw [munch, if_neg hdecimal, if_pos hc, takeWhile_append_of_breaks hrun hbreaks,
    dropWhile_append_of_breaks hrun hbreaks]

/-- The first token of a text that starts with any other character. -/
theorem munch_symbol (position : Nat) {c : Char} {rest : List Char} (hdecimal : isDecimal c = false)
    (hblank : isBlank c = false) :
    munch position c rest = (Token.plain (Kind.ofChar c) position (String.ofList [c]), rest) := by
  simp [munch, hdecimal, hblank]

/-- A step takes the first token of the rest and goes behind it. -/
theorem next_cons (line : String) (position : Nat) (c : Char) (text : List Char) :
    (⟨line, position, c :: text⟩ : Scanner).next =
      ⟨(munch position c text).1, reportsOf line (munch position c text).1,
        ⟨line, position + (munch position c text).1.text.length, (munch position c text).2⟩⟩ := rfl

/-- At the end of a line there is only the end token. -/
theorem tokens_nil (line : String) (position : Nat) :
    (⟨line, position, []⟩ : Scanner).tokens =
      ⟨[Token.finish position], [], ⟨line, position, []⟩⟩ := by
  rw [tokens]
  simp

/-- Before the end of a line the first token and its reports precede those of the rest. -/
theorem tokens_cons (line : String) (position : Nat) (c : Char) (text : List Char) :
    (⟨line, position, c :: text⟩ : Scanner).tokens =
      let first := munch position c text
      let others := (⟨line, position + first.1.text.length, first.2⟩ : Scanner).tokens
      ⟨first.1 :: others.tokens, reportsOf line first.1 ++ others.reports, others.last⟩ := by
  rw [tokens]
  simp [next_cons]

/-!
### Whole texts
-/

/-- What holds at the end of a text, and before a token if it holds behind it, holds everywhere. -/
@[elab_as_elim] theorem munch_induction {motive : Nat → List Char → Prop}
    (nil : ∀ position, motive position [])
    (cons : ∀ position c text,
      motive (position + (munch position c text).1.text.length) (munch position c text).2 →
        motive position (c :: text))
    (position : Nat) (text : List Char) : motive position text := by
  match text with
  | [] => exact nil position
  | c :: text =>
      have := length_munch_le position c text
      exact cons position c text (munch_induction nil cons _ _)
termination_by text.length
decreasing_by
  simp only [List.length_cons]
  omega

/-- What a step takes, put in front of a partition of what is behind it, is a partition. -/
theorem partition_munch {position : Nat} {c : Char} {text : List Char} {others : List Token}
    (h : Partition (position + (munch position c text).1.text.length) (munch position c text).2
      others) :
    Partition position (c :: text) ((munch position c text).1 :: others) := by
  by_cases hdecimal : isDecimal c = true
  · obtain ⟨run, rest, rfl, hrun, hbreaks⟩ := exists_run_append isDecimal text
    have hall : ∀ d ∈ c :: run, isDecimal d = true := by simpa [hdecimal] using hrun
    rw [munch_number position hall hbreaks] at h ⊢
    rw [text_numberToken, String.length_ofList] at h
    exact .number (List.cons_ne_nil c run) hall hbreaks h
  · by_cases hblank : isBlank c = true
    · obtain ⟨run, rest, rfl, hrun, hbreaks⟩ := exists_run_append isBlank text
      have hall : ∀ d ∈ c :: run, isBlank d = true := by simpa [hblank] using hrun
      rw [munch_blank position hall hbreaks] at h ⊢
      rw [Token.text_plain, String.length_ofList] at h
      exact .blank (List.cons_ne_nil c run) hall hbreaks h
    · rw [Bool.not_eq_true] at hdecimal hblank
      rw [munch_symbol position hdecimal hblank] at h ⊢
      rw [Token.text_plain, String.length_ofList] at h
      exact .symbol hdecimal hblank h

/-- Scanning gives a partition of the rest of the line. -/
theorem partition_tokens (line : String) (position : Nat) (text : List Char) :
    Partition position text (⟨line, position, text⟩ : Scanner).tokens.tokens := by
  induction position, text using munch_induction with
  | nil position =>
      rw [tokens_nil]
      exact .finish position
  | cons position c text ih =>
      rw [tokens_cons]
      exact partition_munch ih

/-- What a scan reports is what its tokens report, one after the other. -/
theorem reports_tokens (line : String) (position : Nat) (text : List Char) :
    (⟨line, position, text⟩ : Scanner).tokens.reports =
      (⟨line, position, text⟩ : Scanner).tokens.tokens.flatMap (reportsOf line) := by
  induction position, text using munch_induction with
  | nil position =>
      rw [tokens_nil]
      rfl
  | cons position c text ih =>
      rw [tokens_cons, List.flatMap_cons, ← ih]

/-- A scan leaves the scanner at the end of its line. -/
theorem last_tokens (line : String) (position : Nat) (text : List Char) :
    (⟨line, position, text⟩ : Scanner).tokens.last = ⟨line, position + text.length, []⟩ := by
  induction position, text using munch_induction with
  | nil position =>
      rw [tokens_nil]
      rfl
  | cons position c text ih =>
      have hparts := congrArg List.length (text_munch_append position c text)
      rw [List.length_append, String.length_toList] at hparts
      rw [tokens_cons, ih, ← hparts, Nat.add_assoc]

theorem position_last (line : String) (position : Nat) (text : List Char) :
    (⟨line, position, text⟩ : Scanner).tokens.last.position = position + text.length := by
  rw [last_tokens]

end Scanner

namespace Partition

variable {position : Nat} {text : List Char} {tokens : List Token}

/-- A text has no partition but that of its scan. -/
theorem tokens_eq (h : Partition position text tokens) (line : String) :
    (⟨line, position, text⟩ : Scanner).tokens.tokens = tokens := by
  induction h with
  | finish position => rw [Scanner.tokens_nil]
  | @number position run rest tokens hne hall hbreaks _ ih =>
      obtain ⟨c, run, rfl⟩ := List.exists_cons_of_ne_nil hne
      rw [List.cons_append, Scanner.tokens_cons, Scanner.munch_number position hall hbreaks, ← ih]
      simp only [Scanner.text_numberToken, String.length_ofList]
  | @blank position run rest tokens hne hall hbreaks _ ih =>
      obtain ⟨c, run, rfl⟩ := List.exists_cons_of_ne_nil hne
      rw [List.cons_append, Scanner.tokens_cons, Scanner.munch_blank position hall hbreaks, ← ih]
      simp only [Token.text_plain, String.length_ofList]
  | @symbol position c rest tokens hdecimal hblank _ ih =>
      rw [Scanner.tokens_cons, Scanner.munch_symbol position hdecimal hblank, ← ih]
      simp only [Token.text_plain, String.length_ofList, List.length_singleton]

/-- The end token comes last, at the end of the text, and nowhere else. -/
theorem exists_append_finish (h : Partition position text tokens) :
    ∃ front, tokens = front ++ [Token.finish (position + text.length : Nat)] ∧
      ∀ token ∈ front, token.kind ≠ .finish := by
  induction h with
  | finish position => exact ⟨[], by simp, by simp⟩
  | @number position run rest tokens _ _ _ _ ih =>
      obtain ⟨front, rfl, hfront⟩ := ih
      refine ⟨Scanner.numberToken position run :: front, ?_, by simpa using hfront⟩
      rw [List.length_append, Nat.add_assoc, List.cons_append]
  | @blank position run rest tokens _ _ _ _ ih =>
      obtain ⟨front, rfl, hfront⟩ := ih
      refine ⟨Token.plain .blank position (String.ofList run) :: front, ?_, by simpa using hfront⟩
      rw [List.length_append, Nat.add_assoc, List.cons_append]
  | @symbol position c rest tokens _ _ _ ih =>
      obtain ⟨front, rfl, hfront⟩ := ih
      refine ⟨Token.plain (Kind.ofChar c) position (String.ofList [c]) :: front, ?_,
        by simpa [ofChar_ne_finish] using hfront⟩
      rw [List.length_cons, Nat.add_right_comm, Nat.add_assoc, List.cons_append]

theorem text_ne_empty (h : Partition position text tokens) {token : Token} (hmem : token ∈ tokens) :
    token.text ≠ "" := by
  induction h with
  | finish position =>
      rw [List.mem_singleton] at hmem
      subst hmem
      simp [Token.finish]
  | number hne _ _ _ ih =>
      rcases List.mem_cons.mp hmem with rfl | hmem
      · simpa using hne
      · exact ih hmem
  | blank hne _ _ _ ih =>
      rcases List.mem_cons.mp hmem with rfl | hmem
      · simpa using hne
      · exact ih hmem
  | symbol _ _ _ ih =>
      rcases List.mem_cons.mp hmem with rfl | hmem
      · simp
      · exact ih hmem

/-- Tokens in the order of their offsets, none of which is before `start`. -/
def Ascending (start : Nat) (tokens : List Token) : Prop :=
  tokens.Pairwise (fun one other => one.position < other.position) ∧
    ∀ token ∈ tokens, (start : Int) ≤ token.position

theorem Ascending.cons {start next : Nat} {token : Token} (hposition : token.position = start)
    (hnext : start < next) (h : Ascending next tokens) : Ascending start (token :: tokens) := by
  refine ⟨List.pairwise_cons.mpr ⟨?_, h.1⟩, ?_⟩
  · intro other hmem
    have := h.2 other hmem
    omega
  · intro other hmem
    rcases List.mem_cons.mp hmem with rfl | hmem
    · omega
    · have := h.2 other hmem
      omega

/-- Every token starts behind the start of the one before. -/
theorem ascending (h : Partition position text tokens) : Ascending position tokens := by
  induction h with
  | finish position => simp [Ascending, Token.finish]
  | number hne _ _ _ ih =>
      exact ih.cons rfl (Nat.lt_add_of_pos_right (List.length_pos_iff.mpr hne))
  | blank hne _ _ _ ih =>
      exact ih.cons rfl (Nat.lt_add_of_pos_right (List.length_pos_iff.mpr hne))
  | @symbol position c rest tokens _ _ _ ih => exact ih.cons rfl (Nat.lt_succ_self position)

/-- Every token but the end token stands in the text at its offset. -/
theorem occurs (h : Partition position text tokens) {token : Token} (hmem : token ∈ tokens)
    (hkind : token.kind ≠ .finish) :
    ∃ before behind, text = before ++ token.text.toList ++ behind ∧
      token.position = (position + before.length : Nat) := by
  induction h with
  | finish position =>
      rw [List.mem_singleton] at hmem
      subst hmem
      exact absurd rfl hkind
  | @number position run rest tokens _ _ _ _ ih =>
      rcases List.mem_cons.mp hmem with rfl | hmem
      · exact ⟨[], rest, by simp, by simp⟩
      · obtain ⟨before, behind, rfl, hposition⟩ := ih hmem
        refine ⟨run ++ before, behind, by simp, ?_⟩
        rw [hposition, List.length_append, Nat.add_assoc]
  | @blank position run rest tokens _ _ _ _ ih =>
      rcases List.mem_cons.mp hmem with rfl | hmem
      · exact ⟨[], rest, by simp, by simp⟩
      · obtain ⟨before, behind, rfl, hposition⟩ := ih hmem
        refine ⟨run ++ before, behind, by simp, ?_⟩
        rw [hposition, List.length_append, Nat.add_assoc]
  | @symbol position c rest tokens _ _ _ ih =>
      rcases List.mem_cons.mp hmem with rfl | hmem
      · exact ⟨[], rest, by simp, by simp⟩
      · obtain ⟨before, behind, rfl, hposition⟩ := ih hmem
        refine ⟨c :: before, behind, by simp, ?_⟩
        rw [hposition, List.length_cons]
        omega

/-- A token is a number, which is a run of digits with the value that it decodes to, or a blank, or
    the end token, or else a single character of the kind of the token. -/
theorem text_of_mem (h : Partition position text tokens) {token : Token} (hmem : token ∈ tokens) :
    (token.kind = .number ∧ token.text.toList ≠ [] ∧
        (∀ c ∈ token.text.toList, isDecimal c = true) ∧
        token.value = Numeral.decode token.text.toList) ∨
      token.kind = .blank ∨ token.kind = .finish ∨
      ∃ c, token.kind = Kind.ofChar c ∧ token.text = String.ofList [c] := by
  induction h with
  | finish position =>
      rw [List.mem_singleton] at hmem
      subst hmem
      exact .inr (.inr (.inl rfl))
  | number hne hall _ _ ih =>
      rcases List.mem_cons.mp hmem with rfl | hmem
      · exact .inl ⟨rfl, by simpa using hne, by simpa using hall, by simp⟩
      · exact ih hmem
  | blank _ _ _ _ ih =>
      rcases List.mem_cons.mp hmem with rfl | hmem
      · exact .inr (.inl rfl)
      · exact ih hmem
  | @symbol position c rest tokens _ _ _ ih =>
      rcases List.mem_cons.mp hmem with rfl | hmem
      · exact .inr (.inr (.inr ⟨c, rfl, rfl⟩))
      · exact ih hmem

/-- A number is a run of digits and has the value that its run decodes to. -/
theorem number_of_mem (h : Partition position text tokens) {token : Token} (hmem : token ∈ tokens)
    (hkind : token.kind = .number) :
    token.text.toList ≠ [] ∧ (∀ c ∈ token.text.toList, isDecimal c = true) ∧
      token.value = Numeral.decode token.text.toList := by
  rcases h.text_of_mem hmem with ⟨-, hnumber⟩ | hblank | hfinish | ⟨c, hc, -⟩
  · exact hnumber
  · rw [hkind] at hblank
    exact absurd hblank (by decide)
  · rw [hkind] at hfinish
    exact absurd hfinish (by decide)
  · rw [hkind] at hc
    exact absurd hc.symm (ofChar_ne_number c)

/-- The numbers of a partition are the maximal runs of digits of the text. -/
theorem number_mem_iff (h : Partition position text tokens) (run : List Char) :
    (∃ token ∈ tokens, token.kind = .number ∧ token.text = String.ofList run) ↔
      IsMaximalRun isDecimal text run := by
  induction h with
  | finish position =>
      have hnone := not_isMaximalRun_nil isDecimal run
      simp [Token.finish, hnone]
  | @number position front rest tokens hne hall hbreaks _ ih =>
      rw [isMaximalRun_append_of_pos hne hall hbreaks, ← ih]
      simp [String.ofList_inj, eq_comm]
  | @blank position front rest tokens _ hall _ _ ih =>
      have hout : ∀ c ∈ front, isDecimal c = false :=
        fun c hc => isDecimal_eq_false_of_isBlank (hall c hc)
      rw [isMaximalRun_append_of_neg hout, ← ih]
      simp
  | @symbol position c rest tokens hdecimal _ _ ih =>
      have hout : ∀ d ∈ [c], isDecimal d = false := by simpa using hdecimal
      have hrest : IsMaximalRun isDecimal (c :: rest) run ↔ IsMaximalRun isDecimal rest run :=
        isMaximalRun_append_of_neg hout
      rw [hrest, ← ih]
      simp [ofChar_ne_number]

end Partition

/-!
### Significant tokens
-/

namespace Token

/-- The tokens that are neither blanks nor the end of a text. -/
def isSignificant (token : Token) : Bool :=
  token.kind ≠ .blank && token.kind ≠ .finish

/-- The tokens of a line that are not blanks, without the end token. -/
def significant (line : String) : List Token :=
  (scan line).filter isSignificant

/-- The significant tokens of a line are among its tokens. -/
theorem mem_scan_of_mem_significant {line : String} {token : Token}
    (h : token ∈ significant line) : token ∈ scan line :=
  (List.mem_filter.mp h).1

theorem isSignificant_iff (token : Token) :
    token.isSignificant = true ↔ token.kind ≠ .blank ∧ token.kind ≠ .finish := by
  simp [isSignificant]

theorem isSignificant_numberToken (position : Nat) (run : List Char) :
    (Scanner.numberToken position run).isSignificant = true := rfl

/-- A character that is a token of its own is neither a blank nor the end. -/
theorem isSignificant_symbol (c : Char) (position : Int) (text : String) :
    (plain (Kind.ofChar c) position text).isSignificant = true :=
  (isSignificant_iff _).mpr ⟨ofChar_ne_blank c, ofChar_ne_finish c⟩

/-- The significant tokens of a line are found in its only partition. -/
theorem significant_of_partition {line : String} {tokens : List Token}
    (h : Partition 0 line.toList tokens) : significant line = tokens.filter isSignificant := by
  rw [significant, scan, Scanner.ofLine, h.tokens_eq]

end Token

/-- Blanks in front of a text change none of its significant tokens. They are one more token, or a part
    of the first token if the text starts with blanks itself. -/
theorem exists_partition_blanks {position : Nat} {run rest : List Char} {tokens : List Token}
    (hall : ∀ c ∈ run, isBlank c = true) (h : Partition (position + run.length) rest tokens) :
    ∃ others, Partition position (run ++ rest) others ∧
      others.filter Token.isSignificant = tokens.filter Token.isSignificant := by
  by_cases hne : run = []
  · subst hne
    exact ⟨tokens, h, rfl⟩
  · have hsame : ∀ tokens : List Token,
        (Token.plain .blank position (String.ofList run) :: tokens).filter Token.isSignificant =
          tokens.filter Token.isSignificant := fun _ => rfl
    cases h with
    | finish => exact ⟨_, .blank hne hall (breaks_nil isBlank) (.finish _), hsame _⟩
    | @number _ digits behind others hdigits hdecimal hbreaks hbehind =>
        obtain ⟨c, digits, rfl⟩ := List.exists_cons_of_ne_nil hdigits
        have hfirst : Breaks isBlank (c :: digits ++ behind) := by
          simpa using isBlank_eq_false_of_isDecimal (hdecimal c (by simp))
        exact ⟨_, .blank hne hall hfirst (.number hdigits hdecimal hbreaks hbehind), hsame _⟩
    | @blank _ more behind others _ hmore hbreaks hbehind =>
        -- The two runs of blanks are one.
        have hboth : ∀ c ∈ run ++ more, isBlank c = true := by
          intro c hc
          exact (List.mem_append.mp hc).elim (hall c) (hmore c)
        rw [Nat.add_assoc, ← List.length_append] at hbehind
        rw [← List.append_assoc]
        exact ⟨_, .blank (by simp [hne]) hboth hbreaks hbehind, rfl⟩
    | @symbol _ c behind others hdecimal hblank hbehind =>
        have hfirst : Breaks isBlank (c :: behind) := by simpa using hblank
        exact ⟨_, .blank hne hall hfirst (.symbol hdecimal hblank hbehind), hsame _⟩

end Reckoner
