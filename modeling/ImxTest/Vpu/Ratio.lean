import Mathlib.Algebra.Order.Ring.Int
import Mathlib.Tactic.Common

/-!
# The down-scale ratio of the display

`calculate_ratio` of `display.c` looks for a power of two by which a picture has to be
divided to fit the limits of the display.  Its loop divides the larger side by 2, then
what is left by 4, then by 8, and the ratio is the last of these divisors.  From the
second pass on that is less than the side has been divided by.
-/

set_option autoImplicit false

namespace ImxTest.Vpu.Ratio

/-- `while (tmp > compare)`.  `none` when the loop has not ended after as many passes. -/
def ratioLoop (compare : Int) : (passes : Nat) → (tmp ratio : Int) → (i : Nat) → Option Int
  | 0, tmp, ratio, _ => if tmp > compare then none else some ratio
  | passes + 1, tmp, ratio, i =>
      if tmp > compare then
        let ratio : Int := 2 ^ i
        ratioLoop compare passes (tmp.tdiv ratio) ratio (i + 1)
      else some ratio

def calculateRatio (passes : Nat) (width height maxwidth maxheight : Int) : Option Int :=
  let (tmp, compare) := if width ≥ height then (width, maxwidth) else (height, maxheight)
  if width ≤ maxwidth ∧ height ≤ maxheight then some 1
  else ratioLoop compare passes tmp 1 1

/-- The call ends with a power of two by which both sides fit. -/
def Fits (width height maxwidth maxheight : Int) : Prop :=
  ∃ passes k : Nat, calculateRatio passes width height maxwidth maxheight = some (2 ^ k) ∧
    width.tdiv (2 ^ k) ≤ maxwidth ∧ height.tdiv (2 ^ k) ≤ maxheight

/-- The larger side passes its limit four times at most, and the other side fits too by
the power of two that this asks for. -/
def Near (larger limit other otherLimit : Int) : Prop :=
  (larger ≤ limit ∧ other ≤ otherLimit) ∨
  (limit < larger ∧ larger.tdiv 2 ≤ limit ∧ other.tdiv 2 ≤ otherLimit) ∨
  (limit < larger.tdiv 2 ∧ larger.tdiv 4 ≤ limit ∧ other.tdiv 4 ≤ otherLimit)

/-! ## The loop -/

section Loop
variable {compare tmp ratio : Int} {i : Nat}

theorem ratioLoop_done (passes : Nat) (done : tmp ≤ compare) :
    ratioLoop compare passes tmp ratio i = some ratio := by
  cases passes with
  | zero => rw [ratioLoop, if_neg (by omega)]
  | succ passes => rw [ratioLoop, if_neg (by omega)]

theorem ratioLoop_pass (passes : Nat) (goesOn : compare < tmp) :
    ratioLoop compare (passes + 1) tmp ratio i =
      ratioLoop compare passes (tmp.tdiv (2 ^ i)) (2 ^ i) (i + 1) := by
  rw [ratioLoop, if_pos goesOn]

/-- A loop that has ended and goes on has made a pass. -/
theorem ratioLoop_some {passes : Nat} {result : Int}
    (ended : ratioLoop compare passes tmp ratio i = some result) (goesOn : compare < tmp) :
    ∃ fewer, ratioLoop compare fewer (tmp.tdiv (2 ^ i)) (2 ^ i) (i + 1) = some result := by
  cases passes with
  | zero =>
      rw [ratioLoop, if_pos goesOn] at ended
      cases ended
  | succ passes => exact ⟨passes, by rwa [ratioLoop_pass passes goesOn] at ended⟩

theorem pow_pos_int (i : Nat) : (0 : Int) < 2 ^ i :=
  Int.pow_pos (by decide)

theorem tdiv_pow_eq (nonneg : 0 ≤ tmp) (i : Nat) : tmp.tdiv (2 ^ i) = tmp / 2 ^ i :=
  Int.tdiv_eq_ediv_of_nonneg nonneg

theorem tdiv_nonneg (nonneg : 0 ≤ tmp) (i : Nat) : 0 ≤ tmp.tdiv (2 ^ i) :=
  Int.tdiv_nonneg nonneg (Int.le_of_lt (pow_pos_int i))

/-- Each pass halves what is left at least. -/
theorem tdiv_halves (nonneg : 0 ≤ tmp) (later : 1 ≤ i) : tmp.tdiv (2 ^ i) ≤ tmp / 2 := by
  obtain ⟨j, rfl⟩ : ∃ j, i = 1 + j := ⟨i - 1, by omega⟩
  rw [tdiv_pow_eq nonneg, Int.pow_add, ← Int.ediv_ediv_of_nonneg (by decide)]
  exact Int.ediv_le_self _ (by omega)

theorem ratioLoop_ends (positive : 0 < compare) (nonneg : 0 ≤ tmp) (later : 1 ≤ i) (k : Nat)
    (power : ratio = 2 ^ k) :
    ∃ passes j : Nat, ratioLoop compare passes tmp ratio i = some (2 ^ j) := by
  -- on what is left
  induction left : tmp.toNat using Nat.strong_induction_on generalizing tmp ratio i k with
  | _ left' ih =>
      by_cases done : tmp ≤ compare
      · exact ⟨0, k, by rw [ratioLoop_done 0 done, power]⟩
      · have halves := tdiv_halves nonneg later
        have smaller : (tmp.tdiv (2 ^ i)).toNat < left' := by omega
        obtain ⟨passes, j, ended⟩ :=
          ih _ smaller (tdiv_nonneg nonneg i) (Nat.le_succ_of_le later) i rfl rfl
        exact ⟨passes + 1, j, by rw [ratioLoop_pass passes (by omega), ended]⟩

/-- Once the divisors of the passes so far are worth the next one, the side divided by
the last divisor stays above the limit. -/
theorem ratioLoop_overshoots {larger : Int} (nonneg : 0 ≤ tmp) (later : 1 ≤ i)
    (worth : tmp ≤ larger / 2 ^ i) (goesOn : compare < tmp) {passes : Nat} {result : Int}
    (ended : ratioLoop compare passes tmp ratio i = some result) :
    ∃ k : Nat, result = 2 ^ k ∧ compare < larger / 2 ^ k := by
  induction passes generalizing tmp ratio i with
  | zero =>
      rw [ratioLoop, if_pos goesOn] at ended
      cases ended
  | succ passes ih =>
      rw [ratioLoop_pass passes goesOn] at ended
      by_cases done : tmp.tdiv (2 ^ i) ≤ compare
      · rw [ratioLoop_done passes done] at ended
        exact ⟨i, (Option.some.inj ended).symm, by omega⟩
      · refine ih (tdiv_nonneg nonneg i) (Nat.le_succ_of_le later) ?_ (by omega) ended
        have halves := tdiv_halves nonneg later
        have next : larger / 2 ^ (i + 1) = larger / 2 ^ i / 2 := by
          rw [Int.pow_succ, Int.ediv_ediv_of_nonneg (Int.le_of_lt (pow_pos_int i))]
        rw [next]
        exact Int.le_trans halves (Int.ediv_le_ediv (by decide) worth)

end Loop

/-! ## The larger side and the other -/

section Sides
variable {larger limit other otherLimit : Int}

def ratioOf (passes : Nat) (larger limit other otherLimit : Int) : Option Int :=
  if larger ≤ limit ∧ other ≤ otherLimit then some 1 else ratioLoop limit passes larger 1 1

/-- What a ratio has to be, from how often the larger side passes its limit. -/
theorem ratioOf_some (positive : 0 < larger) {passes : Nat} {ratio : Int}
    (ended : ratioOf passes larger limit other otherLimit = some ratio)
    (fits : larger.tdiv ratio ≤ limit) (otherFits : other.tdiv ratio ≤ otherLimit) :
    Near larger limit other otherLimit := by
  unfold ratioOf at ended
  split at ended
  · next both => exact .inl both
  · next notBoth =>
      by_cases first : larger ≤ limit
      · rw [ratioLoop_done passes first] at ended
        obtain rfl := Option.some.inj ended
        rw [Int.tdiv_one] at otherFits
        exact absurd ⟨first, otherFits⟩ notBoth
      obtain ⟨fewer, ended⟩ := ratioLoop_some ended (by omega)
      by_cases second : larger.tdiv (2 ^ 1) ≤ limit
      · rw [ratioLoop_done fewer second] at ended
        obtain rfl := Option.some.inj ended
        exact .inr (.inl ⟨by omega, fits, otherFits⟩)
      obtain ⟨fewer, ended⟩ := ratioLoop_some ended (by omega)
      by_cases third : (larger.tdiv (2 ^ 1)).tdiv (2 ^ 2) ≤ limit
      · rw [ratioLoop_done fewer third] at ended
        obtain rfl := Option.some.inj ended
        exact .inr (.inr ⟨by simpa using second, fits, otherFits⟩)
      -- the side has been divided by 8, and the next divisor is 8
      have halved : 0 ≤ larger.tdiv (2 ^ 1) := tdiv_nonneg (by omega) 1
      have worth : (larger.tdiv (2 ^ 1)).tdiv (2 ^ 2) ≤ larger / 2 ^ 3 := by
        rw [tdiv_pow_eq halved, tdiv_pow_eq (by omega)]
        omega
      obtain ⟨k, rfl, above⟩ := ratioLoop_overshoots (tdiv_nonneg halved 2) (by decide) worth
        (by omega) ended
      rw [tdiv_pow_eq (by omega)] at fits
      omega

theorem ratioOf_near (positive : 0 < larger) (near : Near larger limit other otherLimit) :
    ∃ passes k : Nat, ratioOf passes larger limit other otherLimit = some (2 ^ k) ∧
      larger.tdiv (2 ^ k) ≤ limit ∧ other.tdiv (2 ^ k) ≤ otherLimit := by
  unfold ratioOf
  rcases near with both | ⟨above, fits, otherFits⟩ | ⟨above, fits, otherFits⟩
  · refine ⟨0, 0, by rw [if_pos both, Int.pow_zero], ?_⟩
    rwa [Int.pow_zero, Int.tdiv_one, Int.tdiv_one]
  · refine ⟨1, 1, ?_, fits, otherFits⟩
    have once : larger.tdiv (2 ^ 1) ≤ limit := fits
    rw [if_neg (by omega), ratioLoop_pass 0 above, ratioLoop_done 0 once]
  · have twice : limit < larger.tdiv (2 ^ 1) := above
    have quarter : larger.tdiv (2 ^ 2) ≤ limit := fits
    have eighth : (larger.tdiv (2 ^ 1)).tdiv (2 ^ 2) ≤ limit := by
      rw [tdiv_pow_eq (tdiv_nonneg (by omega) 1)]
      rw [tdiv_pow_eq (by omega)] at twice quarter ⊢
      omega
    have beyond : limit < larger := by
      rw [tdiv_pow_eq (by omega)] at twice
      omega
    refine ⟨2, 2, ?_, fits, otherFits⟩
    rw [if_neg (by omega), ratioLoop_pass 1 beyond, ratioLoop_pass 0 twice,
      ratioLoop_done 0 eighth]

theorem ratioOf_iff (positive : 0 < larger) :
    (∃ passes k : Nat, ratioOf passes larger limit other otherLimit = some (2 ^ k) ∧
      larger.tdiv (2 ^ k) ≤ limit ∧ other.tdiv (2 ^ k) ≤ otherLimit) ↔
      Near larger limit other otherLimit := by
  constructor
  · rintro ⟨passes, k, ended, fits, otherFits⟩
    exact ratioOf_some positive ended fits otherFits
  · exact ratioOf_near positive

theorem ratioOf_ends (positive : 0 < larger) (limits : 0 < limit) :
    ∃ passes k : Nat, ratioOf passes larger limit other otherLimit = some (2 ^ k) := by
  unfold ratioOf
  by_cases both : larger ≤ limit ∧ other ≤ otherLimit
  · exact ⟨0, 0, by rw [if_pos both, Int.pow_zero]⟩
  · simp only [if_neg both]
    exact ratioLoop_ends limits (by omega) (Nat.le_refl 1) 0 rfl

end Sides

theorem calculateRatio_wide {width height maxwidth maxheight : Int} (passes : Nat)
    (wide : width ≥ height) :
    calculateRatio passes width height maxwidth maxheight =
      ratioOf passes width maxwidth height maxheight := by
  rw [calculateRatio, if_pos wide]
  rfl

theorem calculateRatio_high {width height maxwidth maxheight : Int} (passes : Nat)
    (high : ¬ width ≥ height) :
    calculateRatio passes width height maxwidth maxheight =
      ratioOf passes height maxheight width maxwidth := by
  rw [calculateRatio, if_neg high, ratioOf]
  simp only [and_comm]

/-- The call always ends with a power of two.  Both sides fit by it exactly when the
larger one passes its limit by less than four times and the other one goes along. -/
theorem calculateRatio_fits_iff (width height maxwidth maxheight : Int) (w : 0 < width)
    (h : 0 < height) (mw : 0 < maxwidth) (mh : 0 < maxheight) :
    (∃ passes k : Nat,
      calculateRatio passes width height maxwidth maxheight = some (2 ^ k)) ∧
    (Fits width height maxwidth maxheight ↔
      if width ≥ height then Near width maxwidth height maxheight
      else Near height maxheight width maxwidth) := by
  unfold Fits
  by_cases wide : width ≥ height
  · simp only [calculateRatio_wide _ wide, if_pos wide]
    exact ⟨ratioOf_ends w mw, ratioOf_iff w⟩
  · simp only [calculateRatio_high _ wide, if_neg wide]
    refine ⟨ratioOf_ends h mh, ?_⟩
    rw [← ratioOf_iff h]
    simp only [and_comm]

/-- A picture of 1920 by 1080 on a display of 800 by 480. -/
theorem calculateRatio_fits_hd :
    calculateRatio 2 1920 1080 800 480 = some 4 ∧ Fits 1920 1080 800 480 := by
  refine ⟨by decide, ?_⟩
  refine (calculateRatio_fits_iff 1920 1080 800 480 (by decide) (by decide) (by decide)
    (by decide)).2.mpr ?_
  rw [if_pos (by decide)]
  exact .inr (.inr (by decide))

/-- With 1000 and a limit of 100 the passes divide by 2, 4 and 8, and 1000 / 8 is 125. -/
theorem calculateRatio_too_large :
    ¬ ∀ width height maxwidth maxheight : Int, 0 < width → 0 < height → 0 < maxwidth →
      0 < maxheight → Fits width height maxwidth maxheight := by
  intro fits
  obtain ⟨passes, k, ended, wide, -⟩ :=
    fits 1000 1000 100 100 (by decide) (by decide) (by decide) (by decide)
  rw [calculateRatio_wide passes (by decide)] at ended
  have far : ¬ Near 1000 100 1000 100 := by
    unfold Near
    decide
  exact far (ratioOf_some (by decide) ended wide wide)

end ImxTest.Vpu.Ratio
