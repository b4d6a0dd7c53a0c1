/-
Module: Reckoner.Proofs.Token.Places
Layer: Proofs
Purpose: Where the characters of a line go. Each character is taken with its offset. Those that are
  neither blank nor stray are the characters of the lexemes, one lexeme after the other, and a
  choice of characters by their offsets that keeps lexemes whole is a choice of lexemes. A lexeme
  ends before the next one starts, so whether its characters stand in front of another lexeme is
  told by any one of them.
Main exports: Text.slice, Text.map_fst_slice_of_append, Token.places, Token.Strung,
  Token.Strung.start_le_iff, Token.Strung.end_le_iff, Partition.filter_zipIdx,
  Lexemes.strung_tokens, Lexemes.map_fst_filter_zipIdx
-/
import Mathlib.Data.List.Pairwise
import Reckoner.Proofs.Tree.Stray

namespace Reckoner

open Text

/-- The characters of a line at the offsets from `start` up to `stop`, each with its offset. -/
def Text.slice (line : String) (start stop : Int) : List (Char × Nat) :=
  line.toList.zipIdx.filter fun place => start ≤ place.2 && place.2 < stop

theorem Text.map_fst_slice_of_append {line : String} {before run behind : List Char}
    (hline : line.toList = before ++ run ++ behind) :
    (slice line before.length (before.length + run.length)).map Prod.fst = run := by
  have hbefore : (before.zipIdx 0).filter (fun place => decide ((before.length : Int) ≤ place.2) &&
      decide ((place.2 : Int) < before.length + run.length)) = [] := by
    rw [List.filter_eq_nil_iff]
    intro place hmem
    have hlt := List.snd_lt_add_of_mem_zipIdx hmem
    simp only [Bool.and_eq_true, decide_eq_true_eq]
    omega
  have hbehind : (behind.zipIdx (before ++ run).length).filter
      (fun place => decide ((before.length : Int) ≤ place.2) &&
        decide ((place.2 : Int) < before.length + run.length)) = [] := by
    rw [List.filter_eq_nil_iff]
    intro place hmem
    have hle := List.le_snd_of_mem_zipIdx hmem
    rw [List.length_append] at hle
    simp only [Bool.and_eq_true, decide_eq_true_eq]
    omega
  have hrun : (run.zipIdx before.length).filter
      (fun place => decide ((before.length : Int) ≤ place.2) &&
        decide ((place.2 : Int) < before.length + run.length)) = run.zipIdx before.length := by
    rw [List.filter_eq_self]
    intro place hmem
    have hle := List.le_snd_of_mem_zipIdx hmem
    have hlt := List.snd_lt_add_of_mem_zipIdx hmem
    simp only [Bool.and_eq_true, decide_eq_true_eq]
    omega
  rw [slice, hline, List.zipIdx_append, List.zipIdx_append, List.filter_append, List.filter_append,
    Nat.zero_add, Nat.zero_add, hbefore, hbehind, hrun, List.nil_append, List.append_nil,
    List.zipIdx_map_fst]

namespace Token

/-- The characters of a token, each with its offset. -/
def places (token : Token) : List (Char × Nat) :=
  token.text.toList.zipIdx token.position.toNat

theorem map_fst_places (token : Token) : token.places.map Prod.fst = token.text.toList :=
  List.zipIdx_map_fst _ _

/-- The characters of a token stand from its offset on. -/
theorem bounds_of_mem_places {token : Token} (hnonneg : 0 ≤ token.position) {place : Char × Nat}
    (h : place ∈ token.places) :
    token.position ≤ place.2 ∧ place.2 < token.position + token.text.length := by
  have hle := List.le_snd_of_mem_zipIdx h
  have hlt := List.snd_lt_add_of_mem_zipIdx h
  rw [String.length_toList] at hlt
  omega

/-- A choice of characters by their offsets that keeps tokens whole is a choice of tokens. -/
theorem filter_flatMap_places {tokens : List Token} {chosen : Nat → Bool} {kept : Token → Bool}
    (h : ∀ token ∈ tokens, ∀ place ∈ token.places, chosen place.2 = kept token) :
    (tokens.flatMap places).filter (fun place => chosen place.2) =
      (tokens.filter kept).flatMap places := by
  induction tokens with
  | nil => rfl
  | cons token tokens ih =>
      obtain ⟨hfirst, hothers⟩ := List.forall_mem_cons.mp h
      rw [List.flatMap_cons, List.filter_append, ih hothers]
      cases hkept : kept token with
      | false =>
          have hnone : token.places.filter (fun place => chosen place.2) = [] := by
            rw [List.filter_eq_nil_iff]
            intro place hmem
            rw [hfirst place hmem, hkept]
            simp
          rw [hnone, List.filter_cons_of_neg (by simp [hkept]), List.nil_append]
      | true =>
          have hall : token.places.filter (fun place => chosen place.2) = token.places := by
            rw [List.filter_eq_self]
            intro place hmem
            rw [hfirst place hmem, hkept]
          rw [hall, List.filter_cons_of_pos hkept, List.flatMap_cons]

/-- Tokens one behind the other: none is empty, and each ends before the next one starts. -/
structure Strung (tokens : List Token) : Prop where
  text_ne : ∀ token ∈ tokens, token.text ≠ ""
  nonneg : ∀ token ∈ tokens, 0 ≤ token.position
  separate : tokens.Pairwise fun one other : Token => one.position + one.text.length ≤ other.position

namespace Strung

variable {tokens others : List Token}

theorem sublist (h : Strung tokens) (hsub : others.Sublist tokens) : Strung others :=
  ⟨fun token hmem => h.text_ne token (hsub.subset hmem),
    fun token hmem => h.nonneg token (hsub.subset hmem), h.separate.sublist hsub⟩

theorem length_pos (h : Strung tokens) {token : Token} (hmem : token ∈ tokens) :
    0 < token.text.length := by
  rw [Nat.pos_iff_ne_zero, ne_eq, String.length_eq_zero_iff]
  exact h.text_ne token hmem

/-- Every token starts behind the start of the one before. -/
theorem ascending (h : Strung tokens) :
    tokens.Pairwise fun one other => one.position < other.position := by
  refine h.separate.imp_of_mem ?_
  intro one other hone _ hle
  have hpos := h.length_pos hone
  omega

/-- Two of the tokens are the same, or one of them ends before the other starts. -/
theorem eq_or_separate (h : Strung tokens) {one other : Token} (hone : one ∈ tokens)
    (hother : other ∈ tokens) :
    one = other ∨ one.position + one.text.length ≤ other.position ∨
      other.position + other.text.length ≤ one.position := by
  by_cases hsame : one = other
  · exact .inl hsame
  · let apart (one other : Token) : Prop :=
      one.position + one.text.length ≤ other.position ∨
        other.position + other.text.length ≤ one.position
    have hpairs : tokens.Pairwise apart := h.separate.imp Or.inl
    have hsymm : Std.Symm apart := ⟨fun _ _ => Or.symm⟩
    exact .inr (hpairs.forall hone hother hsame)

theorem head?_le (h : Strung tokens) {first token : Token} (hfirst : tokens.head? = some first)
    (hmem : token ∈ tokens) : first.position ≤ token.position := by
  obtain ⟨behind, rfl⟩ := List.head?_eq_some_iff.mp hfirst
  rcases List.mem_cons.mp hmem with rfl | hmem
  · exact Int.le_refl _
  · exact Int.le_of_lt (List.rel_of_pairwise_cons h.ascending hmem)

theorem le_getLast? (h : Strung tokens) {last token : Token} (hlast : tokens.getLast? = some last)
    (hmem : token ∈ tokens) : token.position ≤ last.position := by
  obtain ⟨front, rfl⟩ := List.getLast?_eq_some_iff.mp hlast
  rcases List.mem_append.mp hmem with hmem | hmem
  · have hascending := (List.pairwise_append.mp h.ascending).2.2
    exact Int.le_of_lt (hascending token hmem last List.mem_cons_self)
  · obtain rfl := List.mem_singleton.mp hmem
    exact Int.le_refl _

theorem start_le_iff (h : Strung tokens) {one other : Token} {offset : Int} (hone : one ∈ tokens)
    (hother : other ∈ tokens) (hstart : one.position ≤ offset)
    (hend : offset < one.position + one.text.length) :
    other.position ≤ offset ↔ other.position ≤ one.position := by
  have hpos := h.length_pos hother
  rcases h.eq_or_separate hone hother with rfl | hbefore | hbehind
  · exact ⟨fun _ => Int.le_refl _, fun _ => hstart⟩
  · omega
  · omega

theorem end_le_iff (h : Strung tokens) {one other : Token} {offset : Int} (hone : one ∈ tokens)
    (hother : other ∈ tokens) (hstart : one.position ≤ offset)
    (hend : offset < one.position + one.text.length) :
    other.position + other.text.length ≤ offset ↔
      other.position + other.text.length ≤ one.position := by
  have hpos := h.length_pos hother
  rcases h.eq_or_separate hone hother with rfl | hbefore | hbehind
  · omega
  · omega
  · omega

end Strung

end Token

namespace Partition

variable {position : Nat} {text : List Char} {tokens : List Token}

/-- A token in front of those that start where it ends. -/
theorem Ascending.pairwise_cons {next : Nat} {token : Token} (h : Ascending next tokens)
    (hend : token.position + token.text.length = next)
    (hothers : tokens.Pairwise fun one other : Token =>
      one.position + one.text.length ≤ other.position) :
    (token :: tokens).Pairwise fun one other : Token =>
      one.position + one.text.length ≤ other.position := by
  refine List.pairwise_cons.mpr ⟨?_, hothers⟩
  intro other hmem
  rw [hend]
  exact h.2 other hmem

/-- Every token of a partition ends before the next one starts. -/
theorem separate (h : Partition position text tokens) :
    tokens.Pairwise fun one other : Token => one.position + one.text.length ≤ other.position := by
  induction h with
  | finish position => exact List.pairwise_singleton _ _
  | number _ _ _ h ih => exact h.ascending.pairwise_cons (by simp) ih
  | blank _ _ _ h ih => exact h.ascending.pairwise_cons (by simp) ih
  | symbol _ _ h ih => exact h.ascending.pairwise_cons (by simp) ih

/-- The characters of a text that are neither blank nor stray are those of its lexemes. -/
theorem filter_zipIdx (h : Partition position text tokens) :
    (text.zipIdx position).filter (fun place => !isBlank place.1 && !isStray place.1) =
      (tokens.filter Token.isLexeme).flatMap Token.places := by
  induction h with
  | finish position => rfl
  | @number position run rest tokens hne hall _ _ ih =>
      have hrun : (run.zipIdx position).filter
          (fun place => !isBlank place.1 && !isStray place.1) = run.zipIdx position := by
        rw [List.filter_eq_self]
        intro place hmem
        have hdecimal := hall place.1 (List.fst_mem_of_mem_zipIdx hmem)
        simp [isBlank_eq_false_of_isDecimal hdecimal, isStray_eq_false_of_isDecimal hdecimal]
      have hplaces : (Scanner.numberToken position run).places = run.zipIdx position := by
        simp [Token.places]
      rw [List.zipIdx_append, List.filter_append, hrun, ih, List.filter_cons_of_pos rfl,
        List.flatMap_cons, hplaces]
  | @blank position run rest tokens hne hall _ _ ih =>
      have hrun : (run.zipIdx position).filter
          (fun place => !isBlank place.1 && !isStray place.1) = [] := by
        rw [List.filter_eq_nil_iff]
        intro place hmem
        simp [hall place.1 (List.fst_mem_of_mem_zipIdx hmem)]
      rw [List.zipIdx_append, List.filter_append, hrun, ih, List.nil_append]
      rfl
  | @symbol position c rest tokens hdecimal hblank _ ih =>
      have hstray := isStray_eq_decide hdecimal hblank
      by_cases hkind : Kind.ofChar c = .bad
      · rw [List.zipIdx_cons, List.filter_cons_of_neg (by simp [hstray, hkind]), ih,
          List.filter_cons_of_neg (by simp [Token.isLexeme, hkind, Kind.isSkipped])]
      · have hlexeme := Token.isLexeme_symbol ((ofChar_ne_bad_iff c).mp hkind) position
          (String.ofList [c])
        rw [List.zipIdx_cons, List.filter_cons_of_pos (by simp [hblank, hstray, hkind]), ih,
          List.filter_cons_of_pos hlexeme, List.flatMap_cons]
        simp [Token.places]

end Partition

namespace Lexemes

theorem strung_tokens (line : String) : Token.Strung (ofLine line).tokens := by
  have hpartition := Scanner.partition_tokens line 0 line.toList
  rw [tokens_of_partition hpartition]
  refine ⟨?_, ?_, hpartition.separate.filter _⟩
  · intro token hmem
    exact hpartition.text_ne_empty (List.mem_filter.mp hmem).1
  · intro token hmem
    exact hpartition.ascending.2 token (List.mem_filter.mp hmem).1

/-- A choice of the characters of a line that are neither blank nor stray, if it keeps lexemes whole,
    is the text of the chosen lexemes. -/
theorem map_fst_filter_zipIdx {line : String} {chosen : Nat → Bool} {kept : Token → Bool}
    (h : ∀ token ∈ (ofLine line).tokens, ∀ place ∈ token.places, chosen place.2 = kept token) :
    (line.toList.zipIdx.filter fun place =>
        chosen place.2 && (!isBlank place.1 && !isStray place.1)).map Prod.fst =
      ((ofLine line).tokens.filter kept).flatMap fun token => token.text.toList := by
  have hpartition := Scanner.partition_tokens line 0 line.toList
  rw [← List.filter_filter, hpartition.filter_zipIdx, ← tokens_of_partition hpartition,
    Token.filter_flatMap_places h, List.map_flatMap]
  simp only [Token.map_fst_places]

end Lexemes

end Reckoner
