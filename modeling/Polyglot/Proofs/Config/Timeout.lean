import Mathlib.Algebra.Group.Nat.Defs
import Polyglot.Config.Validation

/-!
# The time to wait for a worker

A number of seconds is a length of time unless it is too large: what is less than nothing, and what
is no number, counts as nothing.  The sizes of doubles are in the order of their bits, so what is
too large are the bits from those of two to the power of 64 up to those of infinity.
-/

namespace Polyglot

namespace Double

/-- The double lies between two to the power of 64 and infinity, both included. -/
def IsTooLong (seconds : Double) : Prop :=
  (ofNat UInt64.size).bits ≤ seconds.bits ∧ seconds.bits ≤ (infinity false).bits

instance (seconds : Double) : Decidable seconds.IsTooLong :=
  inferInstanceAs (Decidable (_ ∧ _))

variable {seconds : Double}

theorem bits_ofNat_size : (ofNat UInt64.size).bits = 0x43F0000000000000 := by decide +kernel

theorem bits_infinity : (infinity false).bits = 0x7FF0000000000000 := by decide +kernel

theorem isTooLong_iff :
    seconds.IsTooLong ↔
      1087 * 2 ^ 52 ≤ seconds.bits.toNat ∧ seconds.bits.toNat ≤ 2047 * 2 ^ 52 := by
  rw [IsTooLong, bits_ofNat_size, bits_infinity, UInt64.le_iff_toNat_le, UInt64.le_iff_toNat_le]
  rfl

theorem significand_lt (seconds : Double) : seconds.significand < 2 ^ 53 := by
  have small : seconds.fractionBits < 2 ^ 52 := Nat.mod_lt _ (by decide)
  have whole : (2 : Nat) ^ 53 = 2 ^ 52 + 2 ^ 52 := by decide
  rw [significand]
  split
  · omega
  · exact whole ▸ Nat.add_lt_add_right small _

theorem le_significand (normal : seconds.exponentBits ≠ 0) : 2 ^ 52 ≤ seconds.significand := by
  rw [significand, if_neg normal]
  exact Nat.le_add_left _ _

/-- Whether a size is less than two to the power of 64 is told by its exponent. -/
theorem size_lt_iff :
    seconds.size.lt ⟨UInt64.size, 1⟩ = true ↔ seconds.exponentBits < 1087 := by
  have upper := seconds.significand_lt
  rw [size, Ratio.scale2, exponent]
  split
  · rename_i integral
    simp only [Ratio.lt, decide_eq_true_eq, Nat.mul_one]
    generalize isPower : ((max seconds.exponentBits 1 : Nat) - 1075 : Int).toNat = power
    have isExponent : seconds.exponentBits = power + 1075 := by omega
    constructor
    · intro isLess
      apply Nat.lt_of_not_le
      intro isGreat
      have lower : 2 ^ 52 ≤ seconds.significand := le_significand (by omega)
      have large : 2 ^ 12 ≤ Nat.pow 2 power := Nat.pow_le_pow_right (by decide) (by omega)
      have product := Nat.mul_le_mul lower large
      exact absurd (Nat.lt_of_le_of_lt product isLess) (by decide)
    · intro isLess
      have small : Nat.pow 2 power ≤ 2 ^ 11 := Nat.pow_le_pow_right (by decide) (by omega)
      calc seconds.significand * Nat.pow 2 power
          ≤ seconds.significand * 2 ^ 11 := Nat.mul_le_mul_left _ small
        _ < UInt64.size := by simp only [UInt64.size]; omega
  · rename_i fractional
    simp only [Ratio.lt, decide_eq_true_eq, Nat.mul_one]
    refine iff_of_true ?_ (by omega)
    calc seconds.significand
        < UInt64.size * 1 := by simp only [UInt64.size]; omega
      _ ≤ UInt64.size * Nat.pow 2 _ := Nat.mul_le_mul_left _ (Nat.two_pow_pos _)

end Double

/-- A number of seconds is a length of time unless it is too large. -/
theorem Duration.ofSeconds?_eq_none_iff {seconds : Double} :
    ofSeconds? seconds = none ↔ seconds.IsTooLong := by
  have isSize := seconds.bits.toNat_lt
  have size := seconds.size_lt_iff
  rw [Double.isTooLong_iff, ofSeconds?]
  split
  · rename_i nothing
    rw [Bool.or_eq_true, Double.isNaN, Double.isNegative, Bool.and_eq_true, decide_eq_true_eq,
      decide_eq_true_eq, decide_eq_true_eq] at nothing
    refine iff_of_false nofun ?_
    simp only [Double.exponentBits, Double.fractionBits, Nat.pow_eq] at nothing
    omega
  · rename_i something
    rw [Bool.or_eq_true, Double.isNaN, Double.isNegative, Bool.and_eq_true, decide_eq_true_eq,
      decide_eq_true_eq, decide_eq_true_eq] at something
    split
    · rename_i tooMuch
      rw [Bool.or_eq_true, Double.isInfinite, Bool.and_eq_true, decide_eq_true_eq,
        decide_eq_true_eq, Bool.not_eq_true', ← Bool.not_eq_true, size] at tooMuch
      refine iff_of_true rfl ?_
      simp only [Double.exponentBits, Double.fractionBits, Nat.pow_eq] at something tooMuch
      omega
    · rename_i enough
      rw [Bool.or_eq_true, Double.isInfinite, Bool.and_eq_true, decide_eq_true_eq,
        decide_eq_true_eq, Bool.not_eq_true', ← Bool.not_eq_true, size] at enough
      refine iff_of_false nofun ?_
      simp only [Double.exponentBits, Double.fractionBits, Nat.pow_eq] at something enough
      omega

end Polyglot
