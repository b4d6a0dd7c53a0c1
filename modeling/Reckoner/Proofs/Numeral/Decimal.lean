/-
Module: Reckoner.Proofs.Numeral.Decimal
Layer: Proofs
Purpose: Decoding a run of digits. A run of digits has neither blanks nor a sign nor underscores, so
  what is left of decoding is its positional value and three bounds: the run is written in ASCII, it
  is not too long, and its value fits in a word.
Main exports: Numeral.decimal, Numeral.DenotesWord, Numeral.decode_eq_some_iff,
  Numeral.isSome_decode_iff
-/
import Reckoner.Proofs.Numeral.Literal

namespace Reckoner.Numeral

/-- The number that a run of digits denotes: every digit counts one, and all digits in front of it
    ten times as much as they did before. -/
def decimal (run : List Char) : Nat :=
  run.foldl (fun total c => 10 * total + (c.toNat - '0'.toNat)) 0

/-- A run of digits that denotes a word: its digits are ASCII digits, there are at most 4300 of them
    with leading zeros counted, and its value is at most 2147483647. -/
structure DenotesWord (run : List Char) : Prop where
  ascii : ∀ c ∈ run, Text.isAscii c = true
  short : run.length ≤ 4300
  bounded : decimal run ≤ 2147483647

/-- Among the ASCII characters the decimal digits are the ten usual ones. -/
theorem isDigit_of_isDecimal {c : Char} (hascii : Text.isAscii c = true)
    (hdecimal : Text.isDecimal c = true) : c.isDigit = true := by
  have hzeros : ∀ base ∈ Text.decimalZeros, base = 48 ∨ 128 ≤ base := by decide
  obtain ⟨base, hbase, hc⟩ := List.any_eq_true.mp hdecimal
  simp only [Bool.and_eq_true, decide_eq_true_eq] at hc
  have hlow : c.toNat < 128 := of_decide_eq_true hascii
  have hrange : 48 ≤ c.toNat ∧ c.toNat ≤ 57 := by
    rcases hzeros base hbase with rfl | hhigh
    · omega
    · omega
  simp only [Char.isDigit, Bool.and_eq_true, decide_eq_true_eq]
  exact ⟨UInt32.le_iff_toNat_le.mpr hrange.1, UInt32.le_iff_toNat_le.mpr hrange.2⟩

/-- The number denoted by the digit values of a run is the value of the run. -/
theorem valueOf_digitValues (run : List Char) : valueOf (digitValues run) = decimal run := by
  simp only [valueOf, digitValues, decimal, List.foldl_map]
  rfl

/-- What a run of ASCII digits denotes: its value, if it is not too long. -/
theorem literal?_run {run : List Char} (hne : run ≠ []) (hall : ∀ c ∈ run, c.isDigit = true) :
    literal? run = if run.length ≤ 4300 then some (decimal run : Int) else none := by
  have hliteral := (Literal.plain .none run hne hall).literal?_text
  rw [Literal.text_plain, Literal.digits_plain, Literal.sign_plain, valueOf_digitValues] at hliteral
  exact hliteral

/-- A run of digits decodes to its decimal value exactly if it denotes a word. -/
theorem decode_eq_some_iff {run : List Char} (hne : run ≠ [])
    (hall : ∀ c ∈ run, Text.isDecimal c = true) (value : Int) :
    decode run = some value ↔ DenotesWord run ∧ value = decimal run := by
  by_cases hascii : ∀ c ∈ run, Text.isAscii c = true
  · have hdigits : ∀ c ∈ run, c.isDigit = true :=
      fun c hc => isDigit_of_isDecimal (hascii c hc) (hall c hc)
    rw [decode, literal?_run hne hdigits]
    constructor
    · intro h
      rw [Option.filter_eq_some_iff] at h
      obtain ⟨hvalue, hrange⟩ := h
      by_cases hshort : run.length ≤ 4300
      · rw [if_pos hshort, Option.some.injEq] at hvalue
        subst hvalue
        have hupper : (decimal run : Int) ≤ Word.greatest := (of_decide_eq_true hrange).2
        exact ⟨⟨hascii, hshort, by unfold Word.greatest at hupper; omega⟩, rfl⟩
      · rw [if_neg hshort] at hvalue
        exact absurd hvalue (by simp)
    · rintro ⟨hword, rfl⟩
      rw [if_pos hword.short, Option.filter_eq_some_iff]
      refine ⟨rfl, decide_eq_true ?_⟩
      have hbounded := hword.bounded
      unfold Word.InRange Word.least Word.greatest
      omega
  · have hrefused : literal? run = none := by
      rw [literal?, if_neg]
      rw [List.all_eq_true]
      exact hascii
    constructor
    · intro h
      rw [decode, hrefused] at h
      exact absurd h (by simp)
    · intro h
      exact absurd h.1.ascii hascii

/-- A run of digits decodes exactly if it denotes a word. -/
theorem isSome_decode_iff {run : List Char} (hne : run ≠ [])
    (hall : ∀ c ∈ run, Text.isDecimal c = true) : (decode run).isSome ↔ DenotesWord run := by
  rw [Option.isSome_iff_exists]
  constructor
  · rintro ⟨value, hvalue⟩
    exact ((decode_eq_some_iff hne hall value).mp hvalue).1
  · intro hword
    exact ⟨decimal run, (decode_eq_some_iff hne hall _).mpr ⟨hword, rfl⟩⟩

end Reckoner.Numeral
