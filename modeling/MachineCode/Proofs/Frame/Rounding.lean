import MachineCode.Frame.CallSequence
import Mathlib.Order.Bounds.Defs

/-!
# Rounding to the stack alignment

The bytes of a call sequence are rounded up to the stack alignment twice, by two formulas: in
unsigned arithmetic, where a quotient is rounded up if there is a remainder, and in signed
arithmetic, where the alignment less one is added before the division. As long as nothing overflows,
both give the least multiple of the alignment that holds the bytes.
-/

namespace MachineCode

/-- The least multiple of an alignment that is not below an amount. -/
def leastMultiple (alignment amount : Nat) : Nat :=
  (amount + (alignment - 1)) / alignment * alignment

theorem le_leastMultiple {alignment : Nat} (positive : 0 < alignment) (amount : Nat) :
    amount ≤ leastMultiple alignment amount := by
  have split := Nat.div_add_mod' (amount + (alignment - 1)) alignment
  have remainder := Nat.mod_lt (amount + (alignment - 1)) positive
  rw [leastMultiple]
  omega

theorem leastMultiple_lt {alignment : Nat} (positive : 0 < alignment) (amount : Nat) :
    leastMultiple alignment amount < amount + alignment := by
  have below := Nat.div_mul_le_self (amount + (alignment - 1)) alignment
  rw [leastMultiple]
  omega

theorem isLeast_leastMultiple {alignment : Nat} (positive : 0 < alignment) (amount : Nat) :
    IsLeast {bytes | alignment ∣ bytes ∧ amount ≤ bytes} (leastMultiple alignment amount) := by
  refine ⟨⟨Nat.dvd_mul_left .., le_leastMultiple positive amount⟩, ?_⟩
  rintro _ ⟨⟨count, rfl⟩, enough⟩
  rw [leastMultiple, Nat.mul_comm alignment]
  apply Nat.mul_le_mul_right
  rw [← Nat.lt_succ_iff, Nat.div_lt_iff_lt_mul positive, Nat.succ_mul, Nat.mul_comm]
  omega

@[simp] theorem leastMultiple_zero {alignment : Nat} (positive : 0 < alignment) :
    leastMultiple alignment 0 = 0 := by
  rw [leastMultiple, Nat.zero_add, Nat.div_eq_of_lt (by omega), Nat.zero_mul]

/-- The quotient is rounded up if there is a remainder. -/
theorem leastMultiple_eq {alignment : Nat} (positive : 0 < alignment) (amount : Nat) :
    leastMultiple alignment amount =
      (if amount % alignment = 0 then amount / alignment else amount / alignment + 1) *
        alignment := by
  have remainder := Nat.mod_lt amount positive
  have split := Nat.div_add_mod amount alignment
  have rearranged : amount + (alignment - 1) =
      alignment * (amount / alignment) + (amount % alignment + (alignment - 1)) := by
    omega
  rw [leastMultiple, rearranged, Nat.mul_add_div positive]
  congr 1
  split
  next divides =>
    have noMore : (amount % alignment + (alignment - 1)) / alignment = 0 :=
      Nat.div_eq_of_lt (by omega)
    rw [noMore, Nat.add_zero]
  next inexact =>
    have oneMore : (amount % alignment + (alignment - 1)) / alignment = 1 :=
      Nat.div_eq_of_lt_le (by omega) (by omega)
    rw [oneMore]

theorem toNat_alignment (options : Options) :
    options.alignment.toNat = max 1 options.stackAlignment.toNat := by
  have maxEq : max options.stackAlignment 1 =
      if options.stackAlignment ≤ 1 then 1 else options.stackAlignment := rfl
  rw [Options.alignment, UInt32.toNat_toUInt64, maxEq]
  split
  next small =>
    have atMost : options.stackAlignment.toNat ≤ 1 := UInt32.le_iff_toNat_le.mp small
    exact (Nat.max_eq_left atMost).symm
  next large =>
    have above : ¬options.stackAlignment.toNat ≤ 1 := fun small =>
      large (UInt32.le_iff_toNat_le.mpr small)
    exact (Nat.max_eq_right (by omega)).symm

/-- Rounding up a quotient if there is a remainder gives the least multiple. -/
theorem toNat_roundUp {alignment amount : UInt64} (positive : 0 < alignment.toNat)
    (fits : amount.toNat + alignment.toNat < 18446744073709551616) :
    (roundUp alignment amount).toNat = leastMultiple alignment.toNat amount.toNat := by
  have below := leastMultiple_lt positive amount.toNat
  rw [leastMultiple_eq positive] at below ⊢
  have remainderEq : amount % alignment = 0 ↔ amount.toNat % alignment.toNat = 0 := by
    rw [← UInt64.toNat_inj, UInt64.toNat_mod]
    rfl
  rw [roundUp]
  simp only [remainderEq]
  split at below
  next divides =>
    rw [if_pos divides, if_pos divides, UInt64.toNat_mul, UInt64.toNat_div]
    exact Nat.mod_eq_of_lt (by omega)
  next inexact =>
    have quotientEq : (amount / alignment + 1).toNat = amount.toNat / alignment.toNat + 1 := by
      rw [UInt64.toNat_add, UInt64.toNat_div]
      apply Nat.mod_eq_of_lt
      have small := Nat.div_le_self amount.toNat alignment.toNat
      change _ + 1 < _
      omega
    rw [if_neg inexact, if_neg inexact, UInt64.toNat_mul, quotientEq]
    exact Nat.mod_eq_of_lt (by omega)

theorem toInt_toInt64 {value : UInt64} (fits : value.toNat < 9223372036854775808) :
    value.toInt64.toInt = value.toNat := by
  have positive : 2 * value.toBitVec.toNat < 18446744073709551616 := by
    change 2 * value.toNat < _
    omega
  rw [Int64.toInt, UInt64.toBitVec_toInt64]
  exact BitVec.toInt_eq_toNat_of_lt positive

theorem toNat_toUInt64 {value : Int64} {bytes : Nat} (valueEq : value.toInt = bytes) :
    value.toUInt64.toNat = bytes := by
  have nonnegative : 0 ≤ value := by
    rw [Int64.le_iff_toInt_le, valueEq]
    exact Int.natCast_nonneg bytes
  rw [Int64.toNat_toUInt64_of_le nonnegative, Int64.toNatClampNeg, valueEq, Int.toNat_natCast]

theorem eq_zero_of_toInt {value : Int64} {bytes : Nat} (valueEq : value.toInt = bytes)
    (isZero : value = 0) : bytes = 0 := by
  rw [isZero] at valueEq
  exact Int.natCast_eq_zero.mp valueEq.symm

/-- The unsigned formula. -/
theorem toInt_roundUp {alignment : UInt64} {amount : Int64} {bytes : Nat}
    (positive : 0 < alignment.toNat) (amountEq : amount.toInt = bytes)
    (fits : bytes + alignment.toNat < 9223372036854775808) :
    (roundUp alignment amount.toUInt64).toInt64.toInt = leastMultiple alignment.toNat bytes := by
  have bytesEq := toNat_toUInt64 amountEq
  have rounded := @toNat_roundUp alignment amount.toUInt64 positive (by omega)
  have below := leastMultiple_lt positive bytes
  rw [bytesEq] at rounded
  rw [toInt_toInt64 (by omega), rounded]

theorem bmod_of_fits {value : Int} (least : -9223372036854775808 ≤ value)
    (greatest : value < 9223372036854775808) : value.bmod 18446744073709551616 = value :=
  Int.bmod_eq_of_le_mul_two (by omega) (by omega)

/-- The signed formula. -/
theorem toInt_alignedAmount {alignment : UInt64} {amount : Int64} {bytes : Nat}
    (positive : 0 < alignment.toNat) (amountEq : amount.toInt = bytes)
    (fits : bytes + alignment.toNat < 9223372036854775808) :
    ((amount + alignment.toInt64 - 1) / alignment.toInt64 * alignment.toInt64).toInt =
      leastMultiple alignment.toNat bytes := by
  have alignmentEq : alignment.toInt64.toInt = alignment.toNat := toInt_toInt64 (by omega)
  have sumEq : (amount + alignment.toInt64).toInt = ((bytes + alignment.toNat : Nat) : Int) := by
    rw [Int64.toInt_add, amountEq, alignmentEq, ← Int.natCast_add]
    exact bmod_of_fits (by omega) (by omega)
  have raisedEq : (amount + alignment.toInt64 - 1).toInt =
      ((bytes + (alignment.toNat - 1) : Nat) : Int) := by
    have oneEq : (1 : Int64).toInt = 1 := rfl
    rw [Int64.toInt_sub, sumEq, oneEq]
    refine (bmod_of_fits (by omega) (by omega)).trans ?_
    omega
  have quotientEq : ((amount + alignment.toInt64 - 1) / alignment.toInt64).toInt =
      (((bytes + (alignment.toNat - 1)) / alignment.toNat : Nat) : Int) := by
    have small := Nat.div_le_self (bytes + (alignment.toNat - 1)) alignment.toNat
    rw [Int64.toInt_div, raisedEq, alignmentEq, ← Int.ofNat_tdiv]
    exact bmod_of_fits (Int.le_trans (by decide) (Int.natCast_nonneg _)) (by omega)
  have below := leastMultiple_lt positive bytes
  rw [Int64.toInt_mul, quotientEq, alignmentEq, ← Int.natCast_mul, ← leastMultiple]
  exact bmod_of_fits (by omega) (by omega)

end MachineCode
