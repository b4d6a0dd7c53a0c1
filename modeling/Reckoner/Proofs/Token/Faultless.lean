/-
Module: Reckoner.Proofs.Token.Faultless
Layer: Proofs
Purpose: The texts that are scanned without a report. They are those whose characters all can be
  part of a token and whose maximal runs of digits all denote words; every number of such a text has
  the decimal value of its digits.
Main exports: Token.Decoded, Scanner.reports_eq_significant, Scanner.reports_eq_nil_iff,
  Scanner.decoded_of_mem_scan
-/
import Reckoner.Proofs.Numeral.Decimal
import Reckoner.Proofs.Token.Partition

namespace Reckoner

open Text Numeral

/-- If the token is a number, it has the decimal value of its digits. -/
def Token.Decoded (token : Token) : Prop :=
  token.kind = .number → token.value = some (decimal token.text.toList : Int)

namespace Scanner

/-- A token is reported if it is a bad character or a number without a value. -/
theorem reportsOf_eq_nil_iff (line : String) (token : Token) :
    reportsOf line token = [] ↔
      token.kind ≠ .bad ∧ (token.kind = .number → token.value.isSome) := by
  unfold reportsOf
  cases hkind : token.kind with
  | number => cases token.value <;> simp
  | bad => simp
  | _ => simp

/-- What a scan reports, its significant tokens report, one after the other. -/
theorem reports_eq_significant (line : String) :
    (ofLine line).tokens.reports = (Token.significant line).flatMap (reportsOf line) := by
  have hskip : ∀ tokens : List Token,
      tokens.flatMap (reportsOf line) =
        (tokens.filter Token.isSignificant).flatMap (reportsOf line) := by
    intro tokens
    induction tokens with
    | nil => rfl
    | cons token tokens ih =>
        by_cases hsignificant : token.isSignificant = true
        · rw [List.filter_cons_of_pos hsignificant, List.flatMap_cons, List.flatMap_cons, ih]
        · have hnone : reportsOf line token = [] := by
            rw [Token.isSignificant_iff, Decidable.not_and_iff_not_or_not] at hsignificant
            rcases hsignificant with hkind | hkind
            · simp [reportsOf, Decidable.not_not.mp hkind]
            · simp [reportsOf, Decidable.not_not.mp hkind]
          rw [List.filter_cons_of_neg hsignificant, List.flatMap_cons, hnone, List.nil_append, ih]
  rw [ofLine, reports_tokens, hskip]
  rfl

end Scanner

namespace Partition

variable {position : Nat} {text : List Char} {tokens : List Token}

/-- There are no bad tokens exactly if every character is a digit, a blank or a symbol. -/
theorem kind_ne_bad_iff (h : Partition position text tokens) :
    (∀ token ∈ tokens, token.kind ≠ .bad) ↔
      ∀ c ∈ text, isBlank c = true ∨ isDecimal c = true ∨ c ∈ symbols := by
  induction h with
  | finish position => simp [Token.finish]
  | number _ hall _ _ ih =>
      simp only [List.forall_mem_cons, List.forall_mem_append, ih]
      constructor
      · intro hothers
        exact ⟨fun c hc => .inr (.inl (hall c hc)), hothers.2⟩
      · intro hothers
        exact ⟨by simp, hothers.2⟩
  | blank _ hall _ _ ih =>
      simp only [List.forall_mem_cons, List.forall_mem_append, ih]
      constructor
      · intro hothers
        exact ⟨fun c hc => .inl (hall c hc), hothers.2⟩
      · intro hothers
        exact ⟨by simp, hothers.2⟩
  | symbol hdecimal hblank _ ih =>
      simp only [List.forall_mem_cons, ih, Token.kind_plain, ofChar_ne_bad_iff, hdecimal, hblank]
      simp

/-- All numbers have values exactly if all maximal runs of digits denote words. -/
theorem isSome_value_iff (h : Partition position text tokens) :
    (∀ token ∈ tokens, token.kind = .number → token.value.isSome) ↔
      ∀ run, IsMaximalRun isDecimal text run → DenotesWord run := by
  have hvalue : ∀ token ∈ tokens, token.kind = .number →
      (token.value.isSome ↔ DenotesWord token.text.toList) := by
    intro token hmem hkind
    obtain ⟨hne, hall, hvalue⟩ := h.number_of_mem hmem hkind
    rw [hvalue]
    exact isSome_decode_iff hne hall
  constructor
  · intro hall run hrun
    obtain ⟨token, hmem, hkind, htext⟩ := (h.number_mem_iff run).mpr hrun
    have hword := (hvalue token hmem hkind).mp (hall token hmem hkind)
    rwa [htext, String.toList_ofList] at hword
  · intro hall token hmem hkind
    apply (hvalue token hmem hkind).mpr
    apply hall
    exact (h.number_mem_iff _).mp ⟨token, hmem, hkind, by rw [String.ofList_toList]⟩

end Partition

namespace Scanner

/-- A line is scanned without a report exactly if every character is a digit, a blank or a symbol
    and every maximal run of digits denotes a word. -/
theorem reports_eq_nil_iff (line : String) :
    (ofLine line).tokens.reports = [] ↔
      (∀ c ∈ line.toList, isBlank c = true ∨ isDecimal c = true ∨ c ∈ symbols) ∧
        ∀ run, IsMaximalRun isDecimal line.toList run → DenotesWord run := by
  have hpartition := partition_tokens line 0 line.toList
  rw [ofLine, reports_tokens, List.flatMap_eq_nil_iff, ← hpartition.kind_ne_bad_iff,
    ← hpartition.isSome_value_iff]
  simp only [reportsOf_eq_nil_iff]
  constructor
  · intro h
    exact ⟨fun token hmem => (h token hmem).1, fun token hmem => (h token hmem).2⟩
  · intro h token hmem
    exact ⟨h.1 token hmem, h.2 token hmem⟩

/-- A line is scanned without a report if none of its significant tokens is bad and all numbers
    among them have values. -/
theorem reports_eq_nil_of_significant {line : String}
    (h : ∀ token ∈ Token.significant line,
      token.kind ≠ .bad ∧ (token.kind = .number → token.value.isSome)) :
    (ofLine line).tokens.reports = [] := by
  rw [reports_eq_significant, List.flatMap_eq_nil_iff]
  intro token hmem
  exact (reportsOf_eq_nil_iff line token).mpr (h token hmem)

section

variable {line : String} (h : (ofLine line).tokens.reports = []) {token : Token}
  (hmem : token ∈ Token.scan line)
include h hmem

/-- Where nothing is reported, nothing is reported for any token. -/
theorem reportsOf_of_mem_scan : reportsOf line token = [] := by
  rw [ofLine, reports_tokens, List.flatMap_eq_nil_iff] at h
  exact h token hmem

/-- A line that is scanned without a report has no bad tokens. -/
theorem kind_ne_bad_of_mem_scan : token.kind ≠ .bad :=
  ((reportsOf_eq_nil_iff line token).mp (reportsOf_of_mem_scan h hmem)).1

/-- Every number of a line that is scanned without a report has its decimal value. -/
theorem decoded_of_mem_scan : token.Decoded := by
  intro hkind
  have hsome := ((reportsOf_eq_nil_iff line token).mp (reportsOf_of_mem_scan h hmem)).2 hkind
  obtain ⟨value, hvalue⟩ := Option.isSome_iff_exists.mp hsome
  obtain ⟨hne, hall, hdecode⟩ :=
    (partition_tokens line 0 line.toList).number_of_mem hmem hkind
  rw [hvalue] at hdecode
  have hdecimal := ((decode_eq_some_iff hne hall value).mp hdecode.symm).2
  rw [hvalue, hdecimal]

end

end Scanner

end Reckoner
