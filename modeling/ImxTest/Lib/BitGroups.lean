import Mathlib.Algebra.Ring.Nat
import Mathlib.Tactic.Common

/-!
# Groups of bits put into a word

A number that arrives in groups is put together by clearing the bits of a group
and or-ing the new ones in.  `IsLow width mask` says that the mask has exactly the
bits below `width` that the word has room for.
-/

set_option autoImplicit false

namespace ImxTest.Lib.BitGroups

variable {n m : Nat}

def IsLow (width : Nat) (mask : BitVec n) : Prop :=
  ∀ i, i < n → mask.getLsbD i = decide (i < width)

theorem isLow_of_forall {width : Nat} {mask : BitVec n}
    (bits : ∀ i : Fin n, mask.getLsbD i.val = decide (i.val < width)) : IsLow width mask :=
  fun i bound => bits ⟨i, bound⟩

theorem isLow_0x3f : IsLow 6 0x3f#8 :=
  isLow_of_forall (by decide)

theorem isLow_0x7f : IsLow 7 0x7f#8 :=
  isLow_of_forall (by decide)

theorem isLow_0xff : IsLow 8 0xff#8 :=
  isLow_of_forall (by decide)

theorem IsLow.eq_ofNat {width : Nat} {mask : BitVec n} (low : IsLow width mask) :
    mask = BitVec.ofNat n (2 ^ width - 1) := by
  apply BitVec.eq_of_getLsbD_eq
  intro i bound
  rw [low i bound, BitVec.getLsbD_ofNat, Nat.testBit_two_pow_sub_one]
  simp [bound]

theorem IsLow.getLsbD_sub {bits shift i : Nat} {mask : BitVec m} (low : IsLow bits mask)
    (fits : bits ≤ m) (above : shift ≤ i) :
    mask.getLsbD (i - shift) = decide (i < shift + bits) := by
  by_cases room : i - shift < m
  · rw [low (i - shift) room]
    exact decide_eq_decide.mpr (by omega)
  · rw [BitVec.getLsbD_of_ge _ _ (by omega)]
    exact (decide_eq_false (by omega)).symm

/-- The mask of a group of `bits` bits at position `shift` of a wider word. -/
theorem getLsbD_groupMask {bits shift i : Nat} {mask : BitVec m} (low : IsLow bits mask)
    (fits : bits ≤ m) (bound : i < n) :
    (mask.setWidth n <<< shift).getLsbD i = decide (shift ≤ i ∧ i < shift + bits) := by
  rw [BitVec.getLsbD_shiftLeft, BitVec.getLsbD_setWidth]
  by_cases below : i < shift
  · have outside : ¬ (shift ≤ i ∧ i < shift + bits) := by omega
    simp [below, outside]
  · have above : shift ≤ i := by omega
    have room : i - shift < n := by omega
    simp [bound, below, above, room, low.getLsbD_sub fits above]

theorem IsLow.xor_group {width bits : Nat} {mask : BitVec n} {group : BitVec m}
    (low : IsLow width mask) (groupLow : IsLow bits group) (fits : bits ≤ m) :
    IsLow (width + bits) (mask ^^^ (group.setWidth n <<< width)) := by
  intro i bound
  rw [BitVec.getLsbD_xor, low i bound, getLsbD_groupMask groupLow fits bound]
  by_cases below : i < width
  · have inside : i < width + bits := by omega
    simp [below, inside]
  · have above : width ≤ i := by omega
    simp [below, above]

/-- A group replaces the bits of its place and no others. -/
theorem getLsbD_putGroup {bits shift i : Nat} {word : BitVec n} {mask group : BitVec m}
    (low : IsLow bits mask) (fits : bits ≤ m) (bound : i < n) :
    ((word &&& ~~~(mask.setWidth n <<< shift)) |||
        ((group &&& mask).setWidth n <<< shift)).getLsbD i =
      if shift ≤ i ∧ i < shift + bits then group.getLsbD (i - shift) else word.getLsbD i := by
  rw [BitVec.getLsbD_or, BitVec.getLsbD_and, BitVec.getLsbD_not,
    getLsbD_groupMask low fits bound, BitVec.getLsbD_shiftLeft, BitVec.getLsbD_setWidth,
    BitVec.getLsbD_and]
  by_cases below : i < shift
  · have outside : ¬ (shift ≤ i ∧ i < shift + bits) := by omega
    simp [below, bound, outside]
  · have above : shift ≤ i := by omega
    have room : i - shift < n := by omega
    rw [low.getLsbD_sub fits above]
    by_cases inside : i < shift + bits
    · simp [bound, below, above, room, inside]
    · simp [bound, inside]

/-! ## A number that arrives in groups, from the lowest on -/

/-- The bits below `width` are those of the number, the others those of `old`. -/
def Holds (width number : Nat) (old word : BitVec n) : Prop :=
  ∀ i, i < n → word.getLsbD i = if i < width then number.testBit i else old.getLsbD i

section Holds
variable {width number : Nat} {old word : BitVec n}

theorem Holds.start (number : Nat) (old : BitVec n) : Holds 0 number old old := by
  intro i _
  rfl

theorem Holds.putGroup {bits : Nat} {mask : BitVec m} (holds : Holds width number old word)
    (group : BitVec m) (low : IsLow bits mask) (fits : bits ≤ m)
    (same : ∀ i, i < bits → group.getLsbD i = number.testBit (width + i)) :
    Holds (width + bits) number old
      ((word &&& ~~~(mask.setWidth n <<< width)) ||| ((group &&& mask).setWidth n <<< width)) := by
  intro i bound
  rw [getLsbD_putGroup low fits bound, holds i bound]
  by_cases below : i < width
  · have outside : ¬ (width ≤ i ∧ i < width + bits) := by omega
    rw [if_neg outside, if_pos below, if_pos (by omega)]
  · by_cases inside : i < width + bits
    · rw [if_pos ⟨by omega, inside⟩, if_pos inside, same (i - width) (by omega)]
      congr 1
      omega
    · rw [if_neg (by omega), if_neg below, if_neg inside]

/-- Where the bits of the place are clear, or-ing the group in is enough. -/
theorem Holds.orGroup {bits : Nat} {mask : BitVec m} (holds : Holds width number 0#n word)
    (group : BitVec m) (low : IsLow bits mask) (fits : bits ≤ m)
    (same : ∀ i, i < bits → group.getLsbD i = number.testBit (width + i)) :
    Holds (width + bits) number 0#n (word ||| ((group &&& mask).setWidth n <<< width)) := by
  have clear : word &&& ~~~(mask.setWidth n <<< width) = word := by
    apply BitVec.eq_of_getLsbD_eq
    intro i bound
    rw [BitVec.getLsbD_and, BitVec.getLsbD_not, getLsbD_groupMask low fits bound, holds i bound]
    by_cases below : i < width
    · have outside : ¬ (width ≤ i ∧ i < width + bits) := by omega
      simp [below, bound, outside]
    · simp [below]
  have put := holds.putGroup group low fits same
  rwa [clear] at put

theorem Holds.eq_ofNat (holds : Holds width number old word)
    (above : ∀ i, width ≤ i → i < n → old.getLsbD i = number.testBit i) :
    word = BitVec.ofNat n number := by
  apply BitVec.eq_of_getLsbD_eq
  intro i bound
  rw [holds i bound, BitVec.getLsbD_ofNat]
  by_cases below : i < width
  · simp [below, bound]
  · rw [if_neg below, above i (by omega) bound]
    simp [bound]

theorem Holds.eq_ofNat_of_lt (holds : Holds width number 0#n word) (less : number < 2 ^ width) :
    word = BitVec.ofNat n number := by
  apply holds.eq_ofNat
  intro i above _
  have high : number < 2 ^ i := Nat.lt_of_lt_of_le less (Nat.pow_le_pow_right (by decide) above)
  rw [BitVec.getLsbD_zero, Nat.testBit_lt_two_pow high]

/-- A word whose upper bits do not change. -/
theorem Holds.eq_of_agree {new : BitVec n} (holds : Holds width new.toNat old word)
    (agree : new >>> width = old >>> width) : word = new := by
  rw [holds.eq_ofNat, BitVec.ofNat_toNat, BitVec.setWidth_eq]
  intro i above _
  have bit := congrArg (fun word => word.getLsbD (i - width)) agree
  simp only [BitVec.getLsbD_ushiftRight] at bit
  rw [Nat.add_sub_cancel' above] at bit
  exact bit.symm

end Holds

/-- A byte of seven bits of a number from bit `shift` on, with the bit that says
that another one follows. -/
def groupByte (more : Bool) (number shift : Nat) : BitVec 8 :=
  BitVec.ofBool more ++ BitVec.ofNat 7 (number >>> shift)

/-- The bits of a number from bit `shift` on below some others. -/
theorem getLsbD_append_shifted {bits i : Nat} (upper : BitVec n) (number shift : Nat)
    (bound : i < bits) :
    (upper ++ BitVec.ofNat bits (number >>> shift)).getLsbD i = number.testBit (shift + i) := by
  rw [BitVec.getLsbD_append, BitVec.getLsbD_ofNat, Nat.testBit_shiftRight]
  simp [bound]

theorem groupByte_bits (more : Bool) (number shift : Nat) :
    ∀ i, i < 7 → (groupByte more number shift).getLsbD i = number.testBit (shift + i) :=
  fun _ bound => getLsbD_append_shifted _ number shift bound

theorem groupByte_more (more : Bool) (number shift : Nat) :
    (groupByte more number shift).getLsbD 7 = more := by
  rw [groupByte, BitVec.getLsbD_append]
  simp

def groupBytes (number : Nat) : Nat → Nat → List (BitVec 8)
  | 0, _ => []
  | count + 1, shift =>
      groupByte (count != 0) number shift :: groupBytes number count (shift + 7)

end ImxTest.Lib.BitGroups
