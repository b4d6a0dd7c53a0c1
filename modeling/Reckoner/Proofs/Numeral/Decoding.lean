/-
Module: Reckoner.Proofs.Numeral.Decoding
Layer: Proofs
Purpose: The texts that decode to a word. They are the literals of the words whose digits are not too
  many, and they decode to what they denote by the position of their digits. So decoding undoes the
  printing of a word, with any number of zeros in front, and what a scanner finds to be a number has
  no value for one of three reasons.
Main exports: Numeral.positional, Numeral.Literal.value, Numeral.Spells, Numeral.padded,
  Numeral.decode_eq_some_iff_spells
-/
import Mathlib.Data.Nat.Digits.Defs
import Reckoner.Proofs.Numeral.Decimal
import Reckoner.Proofs.Token.Partition

namespace Reckoner.Numeral

/-!
### Positions
-/

/-- The number that a run of digits denotes: a digit counts ten times as much as it would one place
    further right, and the last digit counts one. -/
def positional (run : List Char) : Nat :=
  Nat.ofDigits 10 (run.reverse.map fun c => c.toNat - '0'.toNat)

/-- Adding digit after digit gives what the digits denote by their positions. -/
theorem valueOf_eq_ofDigits (digits : List Nat) :
    valueOf digits = Nat.ofDigits 10 digits.reverse := by
  rw [valueOf, Nat.ofDigits_eq_foldr, List.foldr_reverse]
  simp only [Nat.cast_id, Nat.add_comm]

theorem valueOf_eq_positional (run : List Char) : valueOf (digitValues run) = positional run := by
  rw [valueOf_eq_ofDigits, digitValues, ← List.map_reverse]
  rfl

/-- Both ways to say what a run of digits denotes agree. -/
theorem decimal_eq_positional (run : List Char) : decimal run = positional run := by
  rw [← valueOf_digitValues, valueOf_eq_positional]

/-- The integer that a literal denotes. -/
def Literal.value (literal : Literal) : Int :=
  literal.sign.apply (positional literal.digits)

/-!
### Words
-/

/-- A text spells a word: it is written in ASCII, it is a literal of the word with at most 4300 digits,
    leading zeros included, and the word is one of 32 bits. -/
structure Spells (text : List Char) (value : Int) : Prop where
  ascii : ∀ c ∈ text, Text.isAscii c = true
  written : ∃ literal : Literal, literal.text = text ∧ literal.digits.length ≤ 4300 ∧
    literal.value = value
  lower : -2 ^ 31 ≤ value
  upper : value ≤ 2 ^ 31 - 1

theorem inRange_iff {value : Int} :
    Word.InRange value ↔ -2 ^ 31 ≤ value ∧ value ≤ 2 ^ 31 - 1 := by
  unfold Word.InRange Word.least Word.greatest
  omega

/-- What a literal decodes to. -/
theorem decode_literal_iff (literal : Literal) (value : Int) :
    decode literal.text = some value ↔
      (literal.digits.length ≤ 4300 ∧ literal.value = value) ∧ Word.InRange value := by
  rw [decode, Option.filter_eq_some_iff, decide_eq_true_eq, literal.literal?_text,
    Option.ite_none_right_eq_some, Option.some.injEq, valueOf_eq_positional]
  rfl

/-- A text decodes to a word exactly if it spells it. -/
theorem decode_iff_spells (text : List Char) (value : Int) :
    decode text = some value ↔ Spells text value := by
  constructor
  · intro h
    have hread : literal? text = some value := (Option.filter_eq_some_iff.mp h).1
    obtain ⟨literal, rfl⟩ := exists_literal hread
    obtain ⟨hwritten, hrange⟩ := (decode_literal_iff literal value).mp h
    exact ⟨literal.isAscii_text, ⟨literal, rfl, hwritten⟩, (inRange_iff.mp hrange).1,
      (inRange_iff.mp hrange).2⟩
  · intro h
    obtain ⟨literal, rfl, hwritten⟩ := h.written
    exact (decode_literal_iff literal value).mpr ⟨hwritten, inRange_iff.mpr ⟨h.lower, h.upper⟩⟩

/-!
### Printing
-/

/-- The decimal digits of a number with zeros in front. -/
def paddedDigits (zeros n : Nat) : List Char :=
  List.replicate zeros '0' ++ (toString n).toList

/-- The sign with which an integer is printed. -/
def Sign.ofInt (value : Int) : Sign :=
  if value < 0 then .minus else .none

theorem Sign.apply_ofInt (value : Int) : (ofInt value).apply value.natAbs = value := by
  unfold ofInt
  split
  · simp only [apply]
    omega
  · simp only [apply]
    omega

/-- An integer in decimals with zeros in front of its digits. -/
def padded (zeros : Nat) (value : Int) : List Char :=
  (Sign.ofInt value).text ++ paddedDigits zeros value.natAbs

/-- Without zeros in front an integer is printed as usual. -/
theorem padded_zero (value : Int) : padded 0 value = (toString value).toList := by
  cases value with
  | ofNat n => rfl
  | negSucc n =>
      have hminus : toString (Int.negSucc n) = "-" ++ toString (n + 1) := rfl
      rw [hminus, String.toList_append, padded, Sign.ofInt, if_pos (Int.negSucc_lt_zero n)]
      rfl

theorem isDigit_paddedDigits (zeros n : Nat) : ∀ c ∈ paddedDigits zeros n, c.isDigit = true := by
  intro c hc
  rcases List.mem_append.mp hc with hzero | hdigit
  · rw [List.eq_of_mem_replicate hzero]
    rfl
  · rw [Nat.toString_eq_repr, Nat.toList_repr] at hdigit
    exact Nat.isDigit_of_mem_toDigits (by decide) (by decide) hdigit

theorem paddedDigits_ne_nil (zeros n : Nat) : paddedDigits zeros n ≠ [] := by
  rw [paddedDigits, Nat.toString_eq_repr, Nat.toList_repr]
  simp

/-- Zeros in front count nothing. -/
theorem positional_paddedDigits (zeros n : Nat) : positional (paddedDigits zeros n) = n := by
  rw [← decimal_eq_positional, paddedDigits, Nat.toString_eq_repr, Nat.toList_repr]
  change Nat.ofDigitChars 10 (List.replicate zeros '0' ++ Nat.toDigits 10 n) 0 = n
  rw [Nat.ofDigitChars_append, Nat.ofDigitChars_replicate_zero, Nat.mul_zero,
    Nat.ofDigitChars_ten_toDigits]

theorem length_paddedDigits (zeros n : Nat) :
    (paddedDigits zeros n).length = zeros + (toString n).length := by
  rw [paddedDigits, List.length_append, List.length_replicate, String.length_toList]

/-- A printed integer is decoded exactly if it is a word and is not printed too long. -/
theorem decode_padded_iff (zeros : Nat) (value : Int) :
    decode (padded zeros value) = some value ↔
      Word.InRange value ∧ zeros + (toString value.natAbs).length ≤ 4300 := by
  let literal := Literal.plain (Sign.ofInt value) (paddedDigits zeros value.natAbs)
    (paddedDigits_ne_nil _ _) (isDigit_paddedDigits _ _)
  have htext : literal.text = padded zeros value := Literal.text_plain _ _ _
  have hdigits : literal.digits = paddedDigits zeros value.natAbs := Literal.digits_plain _ _ _
  have hvalue : literal.value = value := by
    rw [Literal.value, hdigits, positional_paddedDigits]
    exact Sign.apply_ofInt value
  rw [← htext, decode_literal_iff, hdigits, length_paddedDigits, hvalue, eq_self, and_true,
    and_comm]

theorem length_toString_le {value : Int} (h : Word.InRange value) :
    (toString value.natAbs).length ≤ 10 := by
  rw [Nat.toString_eq_repr, Nat.length_repr_le_iff (by decide)]
  unfold Word.InRange Word.least Word.greatest at h
  omega

/-- An integer that is printed as usual is decoded exactly if it is a word. -/
theorem decode_toString_iff (value : Int) :
    decode (toString value).toList = some value ↔ Word.InRange value := by
  rw [← padded_zero, decode_padded_iff, and_iff_left_iff_imp]
  intro h
  have := length_toString_le h
  omega

/-!
### Numbers of a line
-/

/-- A run of digits is not decoded for one of three reasons: it is not written in ASCII, it is too
    long, or it denotes too much. -/
theorem decode_eq_none_iff {run : List Char} (hne : run ≠ [])
    (hall : ∀ c ∈ run, Text.isDecimal c = true) :
    decode run = none ↔
      (∃ c ∈ run, Text.isAscii c = false) ∨ 4300 < run.length ∨ 2147483647 < positional run := by
  rw [← Option.not_isSome_iff_eq_none, isSome_decode_iff hne hall, ← decimal_eq_positional]
  constructor
  · intro hnot
    by_cases hascii : ∀ c ∈ run, Text.isAscii c = true
    · right
      by_contra hfits
      rw [not_or, Nat.not_lt, Nat.not_lt] at hfits
      exact hnot ⟨hascii, hfits.1, hfits.2⟩
    · left
      simpa using hascii
  · rintro (⟨c, hc, hforeign⟩ | hlong | hlarge) hword
    · rw [hword.ascii c hc] at hforeign
      exact absurd hforeign (by decide)
    · exact absurd hword.short (Nat.not_le.mpr hlong)
    · exact absurd hword.bounded (Nat.not_le.mpr hlarge)

/-- Decoding accepts exactly the literals of words. A text decodes to an integer exactly if it spells
    it as a word, and to none if it spells no word. So every integer in the range of words, and no
    other, is decoded from its printed form, also with zeros in front as long as it has at most 4300
    digits with them. Each number of a scanned line is a run of digits, which is decoded to none exactly
    if a digit is not an ASCII digit, or there are more than 4300 digits, or they denote more than the
    greatest word. -/
theorem decode_eq_some_iff_spells :
    (∀ (text : List Char) (value : Int), decode text = some value ↔ Spells text value) ∧
      (∀ text : List Char, decode text = none ↔ ∀ value, ¬ Spells text value) ∧
      (∀ value : Int, decode (toString value).toList = some value ↔ Word.InRange value) ∧
      (∀ (zeros : Nat) (value : Int), decode (padded zeros value) = some value ↔
        Word.InRange value ∧ zeros + (toString value.natAbs).length ≤ 4300) ∧
      ∀ (line : String), ∀ token ∈ Token.scan line, token.kind = .number →
        token.value = decode token.text.toList ∧
        (decode token.text.toList = none ↔
          (∃ c ∈ token.text.toList, Text.isAscii c = false) ∨ 4300 < token.text.toList.length ∨
            2147483647 < positional token.text.toList) := by
  refine ⟨decode_iff_spells, fun text => ?_, decode_toString_iff, decode_padded_iff, ?_⟩
  · rw [Option.eq_none_iff_forall_ne_some]
    exact forall_congr' fun value => not_congr (decode_iff_spells text value)
  · intro line token hmem hkind
    obtain ⟨hne, hall, hvalue⟩ :=
      (Scanner.partition_tokens line 0 line.toList).number_of_mem hmem hkind
    exact ⟨hvalue, decode_eq_none_iff hne hall⟩

/-- The least word with padding, zeros and underscores. Without its sign it is too much for a number of
    a line. -/
theorem decode_eq_some_iff_spells_least :
    let text := "\t-00_2_147483648 \n".toList
    let token := Scanner.numberToken 2 "2147483648".toList
    Spells text (-2147483648) ∧ decode text = some (-2147483648) ∧
      token ∈ Token.scan "- 2147483648" ∧ token.kind = .number ∧
      decode token.text.toList = none := by
  intro text token
  obtain ⟨hspells, -, -, -, hnumbers⟩ := decode_eq_some_iff_spells
  let literal : Literal :=
    { before := ['\t'], sign := .minus, groups := ["00".toList, "2".toList, "147483648".toList],
      behind := [' ', '\n'], before_padding := by simp [paddings], grouped := by decide,
      behind_padding := by simp [paddings] }
  have htext : literal.text = text := by decide
  have hleast : Spells text (-2147483648) :=
    ⟨htext ▸ literal.isAscii_text, ⟨literal, htext, by decide, by decide⟩, by decide, by decide⟩
  have hmem : token ∈ Token.scan "- 2147483648" := by decide +kernel
  have hlarge : 2147483647 < positional token.text.toList := by decide
  exact ⟨hleast, (hspells text _).mpr hleast, hmem, rfl,
    (hnumbers _ token hmem rfl).2.mpr (.inr (.inr hlarge))⟩

end Reckoner.Numeral
