import Mathlib.Data.List.Basic
import Mathlib.Tactic.Common

/-!
# Feedback shift registers that take in bits

A register of `n` bits shifts up by one for each bit it takes in and adds a polynomial
when the bit that leaves and the bit that comes in differ.  When the polynomial has its
lowest bit, the lowest bit of the register is the feedback that it has just had, so that
the last `n` feedbacks can be read off the register: two runs of at most `n` bits that
end in one register have taken in the same bits.
-/

set_option autoImplicit false

namespace ImxTest.Lib.ShiftRegister

variable {n : Nat}

def feedback (register : BitVec n) (bit : Bool) : Bool := register.msb ^^ bit

def shiftIn (polynomial register : BitVec n) (bit : Bool) : BitVec n :=
  if feedback register bit then (register <<< 1) ^^^ polynomial else register <<< 1

def takeIn (polynomial register : BitVec n) (bits : List Bool) : BitVec n :=
  bits.foldl (shiftIn polynomial) register

section Step
variable {polynomial : BitVec n} {register other : BitVec n} {bit otherBit : Bool}

theorem getLsbD_shiftIn (i : Nat) (inside : i < n) :
    (shiftIn polynomial register bit).getLsbD i =
      ((decide (0 < i) && register.getLsbD (i - 1)) ^^
        (feedback register bit && polynomial.getLsbD i)) := by
  unfold shiftIn
  cases feedback register bit with
  | true =>
      rw [if_pos rfl, BitVec.getLsbD_xor, BitVec.getLsbD_shiftLeft]
      cases i <;> simp [inside]
  | false =>
      rw [if_neg Bool.false_ne_true, BitVec.getLsbD_shiftLeft]
      cases i <;> simp [inside]

variable (odd : polynomial.getLsbD 0 = true)
include odd

/-- The lowest bit of the register is the last feedback. -/
theorem lowest_shiftIn (positive : 0 < n) :
    (shiftIn polynomial register bit).getLsbD 0 = feedback register bit := by
  rw [getLsbD_shiftIn 0 positive, odd]
  simp

/-- Registers that agree below `width` after a bit have had the same feedback, and agreed one
place less before it. -/
theorem agree_before {width : Nat} (inside : width + 1 ≤ n)
    (agree : ∀ i, i < width + 1 → (shiftIn polynomial register bit).getLsbD i =
      (shiftIn polynomial other otherBit).getLsbD i) :
    feedback register bit = feedback other otherBit ∧
      ∀ i, i < width → register.getLsbD i = other.getLsbD i := by
  have positive : 0 < n := by omega
  have same : feedback register bit = feedback other otherBit := by
    have lowest := agree 0 (by omega)
    rwa [lowest_shiftIn odd positive, lowest_shiftIn odd positive] at lowest
  refine ⟨same, fun i below => ?_⟩
  have above := agree (i + 1) (by omega)
  rw [getLsbD_shiftIn _ (by omega), getLsbD_shiftIn _ (by omega), same] at above
  simpa using above

/-- One bit taken in by two registers tells them apart. -/
theorem shiftIn_injective
    (equal : shiftIn polynomial register bit = shiftIn polynomial other bit) :
    register = other := by
  apply BitVec.eq_of_getLsbD_eq
  intro i inside
  have positive : 0 < n := by omega
  have before := @agree_before n polynomial register other bit bit odd (n - 1) (by omega)
    (fun j _ => congrArg (fun value => value.getLsbD j) equal)
  by_cases top : i = n - 1
  · have leaves : register.msb = other.msb := by
      simpa [feedback] using before.1
    rwa [BitVec.msb_eq_getLsbD_last, BitVec.msb_eq_getLsbD_last, ← top] at leaves
  · exact before.2 i (by omega)

end Step

section Runs
variable {polynomial : BitVec n} (odd : polynomial.getLsbD 0 = true)
include odd

theorem takeIn_injective {register other : BitVec n} (bits : List Bool)
    (equal : takeIn polynomial register bits = takeIn polynomial other bits) :
    register = other := by
  induction bits generalizing register other with
  | nil => exact equal
  | cons bit rest ih => exact shiftIn_injective odd (ih equal)

/-- Runs that end in one register agreed before them in all but as many places as they have
bits. -/
theorem agree_before_run {register other : BitVec n} (bits otherBits : List Bool)
    (lengths : bits.length = otherBits.length)
    (equal : takeIn polynomial register bits = takeIn polynomial other otherBits) :
    ∀ i, i + bits.length < n → register.getLsbD i = other.getLsbD i := by
  induction bits generalizing otherBits register other with
  | nil =>
      cases otherBits with
      | nil => exact fun i _ => congrArg (fun value => value.getLsbD i) equal
      | cons => cases lengths
  | cons bit rest ih =>
      cases otherBits with
      | nil => cases lengths
      | cons otherBit otherRest =>
          have later := ih otherRest (Nat.succ.inj lengths) equal
          intro i inside
          rw [List.length_cons] at inside
          have step := @agree_before n polynomial register other bit otherBit odd (i + 1) (by omega)
            (fun j below => later j (by omega))
          exact step.2 i (by omega)

/-- At most `n` bits that lead from one register to one register are the same bits. -/
theorem takeIn_bits_injective (register : BitVec n) (bits otherBits : List Bool)
    (lengths : bits.length = otherBits.length) (short : bits.length ≤ n)
    (equal : takeIn polynomial register bits = takeIn polynomial register otherBits) :
    bits = otherBits := by
  induction bits generalizing otherBits register with
  | nil => exact (List.length_eq_zero_iff.mp lengths.symm).symm
  | cons bit rest ih =>
      cases otherBits with
      | nil => cases lengths
      | cons otherBit otherRest =>
          rw [List.length_cons] at short
          have later := agree_before_run odd rest otherRest (Nat.succ.inj lengths) equal
          have same := (@agree_before n polynomial register register bit otherBit odd 0 (by omega)
            (fun j below => later j (by omega))).1
          obtain rfl : bit = otherBit := by
            simpa [feedback] using same
          rw [ih (shiftIn polynomial register bit) otherRest (Nat.succ.inj lengths) (by omega) equal]

/-- A burst of at most `n` wrong bits anywhere in a stream changes the register at its end. -/
theorem takeIn_burst (register : BitVec n) (before bits otherBits after : List Bool)
    (lengths : bits.length = otherBits.length) (short : bits.length ≤ n)
    (equal : takeIn polynomial register (before ++ bits ++ after) =
      takeIn polynomial register (before ++ otherBits ++ after)) : bits = otherBits := by
  simp only [takeIn, List.foldl_append] at equal
  exact takeIn_bits_injective odd _ bits otherBits lengths short (takeIn_injective odd after equal)

end Runs

end ImxTest.Lib.ShiftRegister
