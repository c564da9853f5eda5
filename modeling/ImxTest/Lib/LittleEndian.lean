import Mathlib.Algebra.Ring.Int.Defs
import Mathlib.Algebra.Ring.Nat
import Mathlib.Data.List.Basic
import Mathlib.Tactic.Common

/-!
# Little-endian words and two's complement

`leEncode` writes the low bytes of a number, least significant first, and
`leDecode` reads them back.  `signed` and `unsigned` are the two readings of a
word of a given number of values.
-/

set_option autoImplicit false

namespace ImxTest.Lib.LittleEndian

def leEncode : Nat → Nat → List UInt8
  | 0, _ => []
  | width + 1, n => UInt8.ofNat n :: leEncode width (n / 256)

def leDecode : List UInt8 → Nat
  | [] => 0
  | byte :: rest => byte.toNat + 256 * leDecode rest

@[simp]
theorem leEncode_length (width n : Nat) : (leEncode width n).length = width := by
  induction width generalizing n with
  | zero => rfl
  | succ width ih => simp [leEncode, ih]

theorem leDecode_leEncode (width n : Nat) : leDecode (leEncode width n) = n % 256 ^ width := by
  induction width generalizing n with
  | zero => simp [leEncode, leDecode, Nat.mod_one]
  | succ width ih =>
      simp only [leEncode, leDecode, ih]
      rw [Nat.pow_succ', Nat.mod_mul, UInt8.toNat_ofNat']

theorem leDecode_lt (bytes : List UInt8) : leDecode bytes < 2 ^ (8 * bytes.length) := by
  induction bytes with
  | nil => exact Nat.one_pos
  | cons byte rest ih =>
      have here := byte.toNat_lt
      rw [List.length_cons, Nat.mul_succ, Nat.pow_add, leDecode]
      omega

/-- The signed reading of a word that takes `modulus` values. -/
def signed (modulus : Nat) (n : Nat) : Int :=
  if 2 * n < modulus then n else (n : Int) - modulus

/-- The word that reads as the given number. -/
def unsigned (modulus : Nat) (value : Int) : Nat := (value % modulus).toNat

theorem signed_unsigned (modulus : Nat) (value : Int) (low : -(modulus : Int) ≤ 2 * value)
    (high : 2 * value < modulus) : signed modulus (unsigned modulus value) = value := by
  unfold signed unsigned
  by_cases negative : value < 0
  · have wrapped : value % (modulus : Int) = value + modulus := by
      rw [← Int.add_emod_right]
      exact Int.emod_eq_of_lt (by omega) (by omega)
    rw [wrapped]
    split <;> omega
  · have kept : value % (modulus : Int) = value := Int.emod_eq_of_lt (by omega) (by omega)
    rw [kept]
    split <;> omega

theorem unsigned_signed {modulus n : Nat} (below : n < modulus) :
    unsigned modulus (signed modulus n) = n := by
  unfold signed unsigned
  split
  · rw [Int.emod_eq_of_lt (by omega) (by omega), Int.toNat_natCast]
  · rw [Int.sub_emod_right, Int.emod_eq_of_lt (by omega) (by omega), Int.toNat_natCast]

theorem signed_bounds {modulus n : Nat} (below : n < modulus) :
    -(modulus : Int) ≤ 2 * signed modulus n ∧ 2 * signed modulus n < modulus := by
  unfold signed
  split <;> omega

theorem dvd_unsigned_sub (modulus : Nat) (value : Int) (positive : 0 < modulus) :
    (modulus : Int) ∣ unsigned modulus value - value := by
  have nonneg := Int.emod_nonneg value (show (modulus : Int) ≠ 0 by omega)
  rw [unsigned, Int.toNat_of_nonneg nonneg]
  exact Int.dvd_emod_sub_self

theorem unsigned_lt (modulus : Nat) (value : Int) (positive : 0 < modulus) :
    unsigned modulus value < modulus := by
  unfold unsigned
  have nonneg := Int.emod_nonneg value (show (modulus : Int) ≠ 0 by omega)
  have below := Int.emod_lt_of_pos value (show (0 : Int) < modulus by omega)
  omega

end ImxTest.Lib.LittleEndian
