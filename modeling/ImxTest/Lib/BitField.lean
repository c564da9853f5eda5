import Mathlib.Algebra.Order.Ring.Int
import Mathlib.Data.Nat.Bitwise
import Mathlib.Tactic.Common

/-!
# Fields of a word

The bits `lsb .. msb` of a word of `n` bits: the mask by four shifts, replacing them, and
taking them out with an arithmetic shift.
-/

set_option autoImplicit false

namespace ImxTest.Lib.BitField

section Definitions
variable {n : Nat}

def fieldMask (n lsb msb : Nat) : BitVec n :=
  ((BitVec.allOnes n >>> lsb) <<< lsb) <<< (n - 1 - msb) >>> (n - 1 - msb)

def putField (org value : BitVec n) (lsb msb : Nat) : BitVec n :=
  (org &&& ~~~fieldMask n lsb msb) ||| ((value <<< lsb) &&& fieldMask n lsb msb)

def takeField (word : BitVec n) (lsb msb : Nat) : BitVec n :=
  word.sshiftRight lsb &&& (BitVec.allOnes n >>> (n - 1 - (msb - lsb)))

end Definitions

section Bits
variable {n lsb msb : Nat}

theorem getLsbD_fieldMask (high : msb < n) (i : Nat) :
    (fieldMask n lsb msb).getLsbD i = decide (lsb ≤ i ∧ i ≤ msb) := by
  simp only [fieldMask, BitVec.getLsbD_ushiftRight, BitVec.getLsbD_shiftLeft,
    BitVec.getLsbD_allOnes]
  by_cases inside : lsb ≤ i ∧ i ≤ msb
  · simp only [inside, and_self, decide_true, Bool.and_eq_true, decide_eq_true_eq,
      Bool.not_eq_true', decide_eq_false_iff_not]
    omega
  · rw [decide_eq_false inside]
    simp only [Bool.and_eq_false_iff, decide_eq_false_iff_not, Bool.not_eq_false',
      decide_eq_true_eq]
    omega

theorem getLsbD_putField (high : msb < n) (org value : BitVec n) (i : Nat) :
    (putField org value lsb msb).getLsbD i =
      if lsb ≤ i ∧ i ≤ msb then value.getLsbD (i - lsb) else org.getLsbD i := by
  rw [putField, BitVec.getLsbD_or, BitVec.getLsbD_and, BitVec.getLsbD_and, BitVec.getLsbD_not,
    BitVec.getLsbD_shiftLeft, getLsbD_fieldMask high]
  by_cases inside : lsb ≤ i ∧ i ≤ msb
  · have small : i < n := by omega
    have shifted : ¬ i < lsb := by omega
    simp [inside, small, shifted]
  · rw [if_neg inside, decide_eq_false inside]
    by_cases small : i < n
    · simp [small]
    · simp [small, BitVec.getLsbD_of_ge org i (Nat.le_of_not_lt small)]

/-- The sign does not come into a field. -/
theorem getLsbD_takeField (order : lsb ≤ msb) (high : msb < n) (word : BitVec n) (i : Nat) :
    (takeField word lsb msb).getLsbD i =
      (decide (i ≤ msb - lsb) && word.getLsbD (lsb + i)) := by
  rw [takeField, BitVec.getLsbD_and, BitVec.getLsbD_sshiftRight, BitVec.getLsbD_ushiftRight,
    BitVec.getLsbD_allOnes]
  by_cases inside : i ≤ msb - lsb
  · have below : ¬ n ≤ i := by omega
    have bit : lsb + i < n := by omega
    have mask : n - 1 - (msb - lsb) + i < n := by omega
    simp [inside, below, bit, mask]
  · have above : ¬ n - 1 - (msb - lsb) + i < n := by omega
    simp [inside, above]

/-- A field that holds the low bits of a number holds it modulo its size. -/
theorem takeField_eq_mod (order : lsb ≤ msb) (high : msb < n) {word value : BitVec n}
    (same : ∀ i ≤ msb - lsb, word.getLsbD (lsb + i) = value.getLsbD i) :
    (takeField word lsb msb).toNat = value.toNat % 2 ^ (msb - lsb + 1) := by
  apply Nat.eq_of_testBit_eq
  intro i
  rw [Nat.testBit_mod_two_pow, ← BitVec.getLsbD, ← BitVec.getLsbD,
    getLsbD_takeField order high]
  by_cases inside : i ≤ msb - lsb
  · rw [decide_eq_true inside, decide_eq_true (Nat.lt_succ_of_le inside), same i inside]
  · rw [decide_eq_false inside, decide_eq_false (by omega), Bool.false_and, Bool.false_and]

end Bits

end ImxTest.Lib.BitField
