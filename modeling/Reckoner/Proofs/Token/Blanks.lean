/-
Module: Reckoner.Proofs.Token.Blanks
Layer: Proofs
Purpose: Blanks between tokens. Two texts are scanned apart wherever they meet, unless a run of digits
  goes over the cut: a run of blanks may go over it, but blanks are not significant. So blanks that are
  put into a text where no run of digits is cut have no other effect on its significant tokens than to
  move those behind.
Main exports: Partition.exists_append, Token.significant_append, Token.significant_insert,
  Lexemes.tokens_eq_significant
-/
import Reckoner.Proofs.Token.Splice

namespace Reckoner

open Text

/-- The lexemes of a line are its significant tokens but for the bad ones. -/
theorem Lexemes.tokens_eq_significant (line : String) :
    (ofLine line).tokens = (Token.significant line).filter fun token => token.kind ≠ .bad := by
  rw [tokens_of_partition (Scanner.partition_tokens line 0 line.toList), Token.significant,
    List.filter_filter]
  apply List.filter_congr
  intro token _
  cases hkind : token.kind <;>
    simp [Token.isLexeme, Token.isSignificant, Kind.isSkipped, hkind]

/-- A run of digits does not go on from the one text to the other where they meet. -/
def Text.Apart (text rest : List Char) : Prop :=
  (∀ c ∈ text.getLast?, isDecimal c = false) ∨ Breaks isDecimal rest

/-- Whether two texts are apart is decided by the two characters at the cut. -/
instance (text rest : List Char) : Decidable (Apart text rest) :=
  decidable_of_iff ((text.getLast?.all fun c => !isDecimal c) ∨ Breaks isDecimal rest)
    (by simp [Apart, Option.all_eq_true])

/-- Where a text is apart from another, its end is. -/
theorem Text.Apart.of_append {front text rest : List Char} (h : Apart (front ++ text) rest) :
    Apart text rest := by
  apply h.imp_left
  intro hlast c hc
  apply hlast c
  rw [Option.mem_def] at hc ⊢
  rw [List.getLast?_append, hc]
  rfl

/-- What breaks a run of digits at the end of a text breaks it also in front of a text that is apart
    from the run. -/
theorem Text.Apart.breaks_append {run text rest : List Char} (hne : run ≠ [])
    (hrun : ∀ c ∈ run, isDecimal c = true) (h : Apart (run ++ text) rest)
    (hbreaks : Breaks isDecimal text) : Breaks isDecimal (text ++ rest) := by
  cases text with
  | cons c text => simpa using hbreaks
  | nil =>
      refine h.resolve_left fun hlast => ?_
      rw [List.append_nil] at hlast
      have hin := hrun (run.getLast hne) (List.getLast_mem hne)
      rw [hlast (run.getLast hne) (List.getLast?_eq_some_getLast hne)] at hin
      exact absurd hin (by simp)

namespace Partition

variable {position : Nat} {text rest : List Char} {tokens others : List Token}

/-- The significant tokens of two texts are those of both together, unless a run of digits goes on from
    the one to the other. -/
theorem exists_append (h : Partition position text tokens) (hapart : Apart text rest)
    (hrest : Partition (position + text.length) rest others) :
    ∃ all, Partition position (text ++ rest) all ∧
      all.filter Token.isSignificant =
        tokens.filter Token.isSignificant ++ others.filter Token.isSignificant := by
  induction h with
  | finish position => exact ⟨others, hrest, rfl⟩
  | @number position run behind tokens hne hall hbreaks _ ih =>
      rw [List.length_append, ← Nat.add_assoc] at hrest
      obtain ⟨all, hpartition, hfilter⟩ := ih hapart.of_append hrest
      refine ⟨Scanner.numberToken position run :: all, ?_, ?_⟩
      · rw [List.append_assoc]
        exact .number hne hall (hapart.breaks_append hne hall hbreaks) hpartition
      · have hnumber := Token.isSignificant_numberToken position run
        rw [List.filter_cons_of_pos hnumber, List.filter_cons_of_pos hnumber, hfilter,
          List.cons_append]
  | @blank position run behind tokens hne hall hbreaks _ ih =>
      rw [List.length_append, ← Nat.add_assoc] at hrest
      obtain ⟨all, hpartition, hfilter⟩ := ih hapart.of_append hrest
      obtain ⟨whole, hwhole, hsame⟩ := exists_partition_blanks hall hpartition
      refine ⟨whole, by rwa [List.append_assoc], ?_⟩
      rw [hsame, hfilter]
      rfl
  | @symbol position c behind tokens hdecimal hblank _ ih =>
      rw [List.length_cons, Nat.add_comm behind.length, ← Nat.add_assoc] at hrest
      have hbehind : Apart behind rest :=
        Apart.of_append (show Apart ([c] ++ behind) rest from hapart)
      obtain ⟨all, hpartition, hfilter⟩ := ih hbehind hrest
      refine ⟨_, .symbol hdecimal hblank hpartition, ?_⟩
      have hsymbol := Token.isSignificant_symbol c position (String.ofList [c])
      rw [List.filter_cons_of_pos hsymbol, List.filter_cons_of_pos hsymbol, hfilter,
        List.cons_append]

end Partition

namespace Token

/-- The significant tokens of two lines that are put together are those of the one and, moved, those of
    the other, unless a run of digits goes on from the one to the other. -/
theorem significant_append {a b : String} (hapart : Apart a.toList b.toList) :
    significant (a ++ b) = significant a ++ (significant b).map (moved a.length) := by
  have hfront := Scanner.partition_tokens a 0 a.toList
  have hback := (Scanner.partition_tokens b 0 b.toList).moved a.length
  rw [← String.length_toList] at hback
  obtain ⟨all, hall, hfilter⟩ := hfront.exists_append hapart hback
  rw [← String.toList_append] at hall
  rw [significant_of_partition hall, hfilter, List.filter_map]
  rfl

/-- Blanks on their own have no significant tokens. -/
theorem significant_of_blank {w : String} (hw : ∀ c ∈ w.toList, isBlank c = true) :
    significant w = [] := by
  obtain ⟨others, hothers, hfilter⟩ := exists_partition_blanks hw (.finish (0 + w.toList.length))
  rw [List.append_nil] at hothers
  rw [significant_of_partition hothers, hfilter]
  rfl

theorem position_of_mem_significant {line : String} {token : Token}
    (h : token ∈ significant line) : 0 ≤ token.position ∧ token.position < line.length := by
  have hpartition := Scanner.partition_tokens line 0 line.toList
  obtain ⟨hmem, hsignificant⟩ := List.mem_filter.mp h
  have hkind := ((isSignificant_iff token).mp hsignificant).2
  obtain ⟨before, behind, hline, hposition⟩ := hpartition.occurs hmem hkind
  have htext : 0 < token.text.length := by
    rw [Nat.pos_iff_ne_zero, ne_eq, String.length_eq_zero_iff]
    exact hpartition.text_ne_empty hmem
  have hlength := congrArg List.length hline
  rw [List.length_append, List.length_append, String.length_toList, String.length_toList] at hlength
  omega

/-- Blanks that are put into a line where no run of digits is cut move the significant tokens behind
    them and have no other effect on the significant tokens. -/
theorem significant_insert {a w b : String} (hw : ∀ c ∈ w.toList, isBlank c = true)
    (hapart : Apart a.toList b.toList) :
    significant (a ++ w ++ b) =
      (significant (a ++ b)).map (relocated (displaced a.length w.length)) := by
  have hfront : Apart a.toList w.toList := .inr fun c hc =>
    isDecimal_eq_false_of_isBlank (hw c (List.mem_of_mem_head? hc))
  have hback : Apart (a ++ w).toList b.toList := by
    rw [String.toList_append]
    cases hlast : w.toList.getLast? with
    | none => simpa [List.getLast?_eq_none_iff.mp hlast] using hapart
    | some d =>
        have hd := isDecimal_eq_false_of_isBlank (hw d (List.mem_of_getLast? hlast))
        exact .inl (by simpa [List.getLast?_append, hlast] using hd)
  have hstay : ∀ token ∈ significant a, token.relocated (displaced a.length w.length) = token := by
    intro token hmem
    exact relocated_of_lt (position_of_mem_significant hmem).2 w.length
  have hmove : ∀ token ∈ significant b,
      (token.moved a.length).relocated (displaced a.length w.length) =
        token.moved (a ++ w).length := by
    intro token hmem
    have hle : (a.length : Int) ≤ token.position + a.length :=
      Int.le_add_of_nonneg_left (position_of_mem_significant hmem).1
    rw [relocated_of_le hle, moved_moved, String.length_append, Int.natCast_add]
  rw [significant_append hback, significant_append hfront, significant_append hapart,
    significant_of_blank hw, List.map_nil, List.append_nil, List.map_append, List.map_map,
    List.map_congr_left hstay, List.map_id', ← List.map_congr_left hmove]
  rfl

end Token

end Reckoner
