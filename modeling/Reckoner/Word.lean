/-
Module: Reckoner.Word
Layer: Arithmetic
Purpose: Signed 32-bit arithmetic, stated on integers. Results are computed exactly and then reduced
  to the range of words by `wrap`, so that every operation has its ordinary meaning up to a multiple
  of 2^32.
Main exports: Word.InRange, Word.wrap, Word.wrap_inRange, Word.wrap_of_inRange
-/

namespace Reckoner.Word

def least : Int := -2147483648

def greatest : Int := 2147483647

/-- The integers that a 32-bit word can hold. -/
def InRange (value : Int) : Prop :=
  least ≤ value ∧ value ≤ greatest

instance (value : Int) : Decidable (InRange value) :=
  inferInstanceAs (Decidable (_ ∧ _))

/-- The integer in the range of words that differs from `value` by a multiple of 2^32. -/
def wrap (value : Int) : Int :=
  (value - least) % 4294967296 + least

theorem wrap_inRange (value : Int) : InRange (wrap value) := by
  unfold InRange wrap least greatest
  omega

theorem wrap_of_inRange {value : Int} (h : InRange value) : wrap value = value := by
  unfold InRange least greatest at h
  unfold wrap least
  omega

/-- Wrapping moves an integer by a multiple of 2^32. -/
theorem wrap_emod (value : Int) : wrap value % 4294967296 = value % 4294967296 := by
  unfold wrap least
  omega

end Reckoner.Word
