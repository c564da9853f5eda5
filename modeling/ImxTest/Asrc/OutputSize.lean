import Mathlib.Analysis.SpecialFunctions.Log.Base
import Mathlib.Tactic.Linarith
import Mathlib.Tactic.Ring

/-!
# The size of the converted output

`asrc_get_output_buffer_size` multiplies the size of the input by the ratio of the rates.
The whole part of the ratio is counted by subtraction; its binary digits behind the point
are found by doubling the remainder, and each adds a part of the input size that is
rounded down.  The digits end where the part would be less than three.

The loops take the number of passes that they may make; a run that needs more has no
result.
-/

set_option autoImplicit false

namespace ImxTest.Asrc.OutputSize

def asInt (n : Int) : Int :=
  n.bmod (2 ^ 32)

/-- The first loop. -/
def countWhole (inputSampleRate : Int) : Nat → Int → Int → Option (Int × Int)
  | 0, _, _ => none
  | passes + 1, i, outsample =>
      if outsample ≥ inputSampleRate then
        countWhole inputSampleRate passes (asInt (i + 1)) (asInt (outsample - inputSampleRate))
      else some (i, outsample)

/-- The second loop. -/
def addDigits (inputBufferSize inputSampleRate : Int) : Nat → Nat → Int → Int → Option Int
  | 0, _, _, _ => none
  | passes + 1, i, outsample, outbufferSize =>
      if inputBufferSize >>> i > 2 ∧ outsample ≠ 0 then
        if asInt (asInt (outsample <<< (1 : Nat)) - inputSampleRate) ≥ 0 then
          addDigits inputBufferSize inputSampleRate passes (i + 1)
            (asInt (asInt (outsample <<< (1 : Nat)) - inputSampleRate))
            (asInt (outbufferSize + inputBufferSize >>> i))
        else
          addDigits inputBufferSize inputSampleRate passes (i + 1)
            (asInt (outsample <<< (1 : Nat))) outbufferSize
      else some outbufferSize

def asrcGetOutputBufferSize (passes : Nat)
    (inputBufferSize inputSampleRate outputSampleRate : Int) : Option Int :=
  (countWhole inputSampleRate passes 0 outputSampleRate).bind fun whole =>
    (addDigits inputBufferSize inputSampleRate passes 1 whole.2
      (asInt (whole.1 * inputBufferSize))).map fun outbufferSize : Int =>
        asInt ((outbufferSize >>> (3 : Nat)) <<< (3 : Nat))

/-! ## The whole part -/

theorem asInt_eq {n : Int} (low : -2 ^ 31 ≤ n) (high : n < 2 ^ 31) : asInt n = n := by
  rw [asInt]
  exact Int.bmod_eq_of_le (by omega) (by omega)

theorem asInt_bounds (n : Int) : -2 ^ 31 ≤ asInt n ∧ asInt n < 2 ^ 31 := by
  have low := Int.le_bmod (x := n) (m := 2 ^ 32) (by decide)
  have high := Int.bmod_lt (x := n) (m := 2 ^ 32) (by decide)
  rw [asInt]
  omega

theorem dvd_asInt_sub (n : Int) : 2 ^ 32 ∣ asInt n - n :=
  Int.dvd_bmod_sub_self (x := n) (m := 2 ^ 32)

theorem asInt_eq_of_dvd {n value : Int} (low : -2 ^ 31 ≤ value) (high : value < 2 ^ 31)
    (same : 2 ^ 32 ∣ n - value) : asInt n = value := by
  have bounds := asInt_bounds n
  have turns := dvd_asInt_sub n
  omega

/-- By induction on the quotient. -/
theorem countWhole_eq {rate : Int} (positive : 0 < rate) (quotient : Nat) {i rest : Int}
    (nonneg : 0 ≤ rest) (below : rest < rate) (start : 0 ≤ i)
    (fits : i + quotient * rate + rest < 2 ^ 31) {passes : Nat} (enough : quotient < passes) :
    countWhole rate passes i (quotient * rate + rest) = some (i + quotient, rest) := by
  induction quotient generalizing i passes with
  | zero =>
      obtain ⟨passes, rfl⟩ := Nat.exists_eq_add_of_lt enough
      simp only [Nat.cast_zero, zero_mul, zero_add, add_zero]
      rw [countWhole, if_neg (Int.not_le.mpr below)]
  | succ quotient ih =>
      have more : (((quotient + 1 : Nat) : Int)) * rate = quotient * rate + rate := by
        push_cast
        ring
      have product : 0 ≤ (quotient : Int) * rate := by positivity
      rw [more] at fits ⊢
      obtain ⟨passes, rfl⟩ := Nat.exists_eq_add_of_lt (Nat.zero_lt_of_lt enough)
      have going : quotient * rate + rate + rest ≥ rate := by omega
      have less : quotient * rate + rate + rest - rate = quotient * rate + rest := by ring
      rw [Nat.zero_add] at enough ⊢
      rw [countWhole, if_pos going, asInt_eq (by omega) (by omega), less,
        asInt_eq (by omega) (by omega), ih (by omega) (by omega) (Nat.lt_of_succ_lt_succ enough)]
      congr 2
      push_cast
      ring

/-! ## The digits -/

/-- After `d` digits: what has been added lies below the product by no more than one for
each digit, and `N * outsample` is what the digits that follow are worth. -/
structure Approaches (N rate out : Int) (d : Nat) (outsample size : Int) : Prop where
  nonneg : 0 ≤ outsample
  below : outsample < rate
  size_nonneg : 0 ≤ size
  lower : rate * 2 ^ d * size + N * outsample ≤ N * out * 2 ^ d
  upper : N * out * 2 ^ d ≤ rate * 2 ^ d * (size + d) + N * outsample
  digits : (2 : Int) ^ d ≤ N + 1

section Digits
variable {N rate out outsample size : Int} {d : Nat}

theorem shiftRight_bounds (N : Int) (d : Nat) :
    2 ^ d * (N >>> d) ≤ N ∧ N < 2 ^ d * (N >>> d + 1) := by
  have positive : (0 : Int) < 2 ^ d := by positivity
  rw [Int.shiftRight_eq_div_pow]
  push_cast
  constructor
  · exact Int.mul_ediv_self_le positive.ne'
  · rw [mul_add, mul_one]
    exact Int.lt_mul_ediv_self_add positive

theorem Approaches.take (approaches : Approaches N rate out d outsample size)
    (positive : 0 < rate) (large : N >>> (d + 1) > 2) (one : outsample * 2 - rate ≥ 0) :
    Approaches N rate out (d + 1) (outsample * 2 - rate) (size + N >>> (d + 1)) := by
  obtain ⟨nonneg, below, size_nonneg, lower, upper, digits⟩ := approaches
  obtain ⟨floor, ceiling⟩ := shiftRight_bounds N (d + 1)
  have power : (2 : Int) ^ (d + 1) = 2 * 2 ^ d := by ring
  have pos : (0 : Int) < 2 ^ d := by positivity
  have part : rate * (2 ^ (d + 1) * N >>> (d + 1)) ≤ rate * N :=
    Int.mul_le_mul_of_nonneg_left floor positive.le
  have rest : rate * N ≤ rate * (2 ^ (d + 1) * (N >>> (d + 1) + 1)) :=
    Int.mul_le_mul_of_nonneg_left ceiling.le positive.le
  rw [power] at part rest floor ceiling
  refine ⟨one, by omega, by omega, ?_, ?_, ?_⟩
  · rw [power]
    linarith
  · rw [power]
    push_cast
    linarith
  · rw [power]
    nlinarith

theorem Approaches.skip (approaches : Approaches N rate out d outsample size)
    (positive : 0 < rate) (large : N >>> (d + 1) > 2) (zero : outsample * 2 - rate < 0) :
    Approaches N rate out (d + 1) (outsample * 2) size := by
  obtain ⟨nonneg, below, size_nonneg, lower, upper, digits⟩ := approaches
  obtain ⟨floor, -⟩ := shiftRight_bounds N (d + 1)
  have power : (2 : Int) ^ (d + 1) = 2 * 2 ^ d := by ring
  have pos : (0 : Int) < 2 ^ d := by positivity
  have product : 0 < rate * 2 ^ d := Int.mul_pos positive pos
  rw [power] at floor
  refine ⟨by omega, by omega, size_nonneg, ?_, ?_, ?_⟩
  · rw [power]
    linarith
  · rw [power]
    push_cast
    linarith
  · rw [power]
    nlinarith

theorem Approaches.size_le (approaches : Approaches N rate out d outsample size) (nonneg : 0 ≤ N) :
    rate * size ≤ N * out := by
  have pos : (0 : Int) < 2 ^ d := by positivity
  have rest : 0 ≤ N * outsample := Int.mul_nonneg nonneg approaches.nonneg
  have scaled : rate * size * 2 ^ d ≤ N * out * 2 ^ d := by
    have lower := approaches.lower
    linarith
  exact Int.le_of_mul_le_mul_right scaled pos

theorem addDigits_more {passes more i : Nat} {final : Int} (le : passes ≤ more)
    (run : addDigits N rate passes i outsample size = some final) :
    addDigits N rate more i outsample size = some final := by
  induction passes generalizing more i outsample size with
  | zero => cases run
  | succ passes ih =>
      obtain ⟨more, rfl⟩ := Nat.exists_eq_add_of_le' (Nat.zero_lt_of_lt le)
      rw [addDigits] at run ⊢
      split at run
      · rename_i going
        rw [if_pos going]
        split at run
        · rename_i one
          rw [if_pos one]
          exact ih (Nat.le_of_succ_le_succ le) run
        · rename_i zero
          rw [if_neg zero]
          exact ih (Nat.le_of_succ_le_succ le) run
      · rename_i stopped
        rw [if_neg stopped]
        exact run

/-- By induction on the passes: 32 bits have at most so many digits. -/
theorem addDigits_approaches (positive : 0 < rate) (rate_fits : rate < 2 ^ 30) (nonneg : 0 ≤ N)
    (N_fits : N < 2 ^ 31) (product : N * out < rate * 2 ^ 31) {passes : Nat}
    (enough : 32 ≤ passes + d) (approaches : Approaches N rate out d outsample size) :
    ∃ last rest final, addDigits N rate passes (d + 1) outsample size = some final ∧
      Approaches N rate out last rest final ∧ (N >>> (last + 1) ≤ 2 ∨ rest = 0) := by
  have bounded : ∀ {d outsample size}, Approaches N rate out d outsample size →
      size < 2 ^ 31 := by
    intro d outsample size approaches
    apply Int.lt_of_mul_lt_mul_left _ positive.le
    exact (approaches.size_le nonneg).trans_lt product
  induction passes generalizing d outsample size with
  | zero =>
      have power : (2 : Int) ^ 32 ≤ 2 ^ d := pow_le_pow_right₀ (by decide) (by omega)
      have digits := approaches.digits
      omega
  | succ passes ih =>
      rw [addDigits]
      by_cases going : N >>> (d + 1) > 2 ∧ outsample ≠ 0
      · have doubled : asInt (outsample <<< (1 : Nat)) = outsample * 2 := by
          have low := approaches.nonneg
          have high := approaches.below
          rw [Int.shiftLeft_eq, asInt_eq (by omega) (by omega)]
          rfl
        have reduced : asInt (outsample * 2 - rate) = outsample * 2 - rate := by
          have low := approaches.nonneg
          have high := approaches.below
          exact asInt_eq (by omega) (by omega)
        rw [if_pos going, doubled, reduced]
        by_cases one : outsample * 2 - rate ≥ 0
        · have next := approaches.take positive going.1 one
          have added := next.size_nonneg
          rw [if_pos one, asInt_eq (by omega) (bounded next)]
          exact ih (by omega) next
        · rw [if_neg one]
          exact ih (by omega) (approaches.skip positive going.1 (by omega))
      · rw [if_neg going]
        refine ⟨d, outsample, size, rfl, approaches, ?_⟩
        rw [not_and_or, not_not] at going
        exact going.imp Int.not_lt.mp id

/-- What the digits that are not read are worth is less than six. -/
theorem Approaches.lt_six (approaches : Approaches N rate out d outsample size)
    (positive : 0 < rate) (stopped : N >>> (d + 1) ≤ 2 ∨ outsample = 0) :
    N * out < rate * (size + d + 6) := by
  have pos : (0 : Int) < 2 ^ d := by positivity
  have tail : N * outsample < rate * 2 ^ d * 6 := by
    obtain small | zero := stopped
    · obtain ⟨-, ceiling⟩ := shiftRight_bounds N (d + 1)
      have power : (2 : Int) ^ (d + 1) = 2 * 2 ^ d := by ring
      have less : N < 2 ^ d * 6 := by
        rw [power] at ceiling
        nlinarith
      have nonneg : 0 ≤ N + 1 := pos.le.trans approaches.digits
      have below := approaches.below
      have above := approaches.nonneg
      nlinarith
    · rw [zero, mul_zero]
      positivity
  have upper := approaches.upper
  apply Int.lt_of_mul_lt_mul_right _ pos.le
  linarith

end Digits

/-! ## The result -/

section Result
variable {N rate out : Int}

/-- Before the first digit the whole part is multiplied exactly. -/
theorem approaches_whole (nonneg : 0 ≤ N) (positive : 0 < rate) (out_nonneg : 0 ≤ out) :
    Approaches N rate out 0 (out % rate) (out / rate * N) := by
  have division := Int.mul_ediv_add_emod out rate
  have same : rate * (out / rate * N) + N * (out % rate) = N * out := by
    calc rate * (out / rate * N) + N * (out % rate) = N * (rate * (out / rate) + out % rate) := by
          ring
      _ = N * out := by rw [division]
  have quotient : 0 ≤ out / rate := Int.ediv_nonneg out_nonneg positive.le
  refine ⟨Int.emod_nonneg out positive.ne', Int.emod_lt_of_pos out positive,
    Int.mul_nonneg quotient nonneg, ?_, ?_, by rw [pow_zero]; omega⟩
  · rw [pow_zero, mul_one, mul_one, same]
  · rw [pow_zero, mul_one, mul_one, Nat.cast_zero, add_zero, same]

theorem round_bounds {size : Int} (nonneg : 0 ≤ size) (fits : size < 2 ^ 31) :
    8 ∣ asInt ((size >>> (3 : Nat)) <<< (3 : Nat)) ∧
      asInt ((size >>> (3 : Nat)) <<< (3 : Nat)) ≤ size ∧
      size ≤ asInt ((size >>> (3 : Nat)) <<< (3 : Nat)) + 7 := by
  have value : (size >>> (3 : Nat)) <<< (3 : Nat) = size / 8 * 8 := by
    rw [Int.shiftLeft_eq, Int.shiftRight_eq_div_pow]
    rfl
  rw [value, asInt_eq (by omega) (by omega)]
  omega

theorem asrcGetOutputBufferSize_bounds (nonneg : 0 ≤ N) (N_fits : N < 2 ^ 31) (positive : 0 < rate)
    (rate_fits : rate < 2 ^ 30) (out_nonneg : 0 ≤ out) (out_fits : out < 2 ^ 31)
    (product : N * out < rate * 2 ^ 31) :
    ∃ (result : Int) (d : Nat), (∃ enough, ∀ passes ≥ enough,
        asrcGetOutputBufferSize passes N rate out = some result) ∧
      8 ∣ result ∧ rate * result ≤ N * out ∧ N * out < rate * (result + d + 13) ∧
      (2 : Int) ^ d ≤ N + 1 := by
  have start := approaches_whole nonneg positive out_nonneg
  have bounded : ∀ {size : Int}, rate * size ≤ N * out → size < 2 ^ 31 := by
    intro size le
    exact Int.lt_of_mul_lt_mul_left (le.trans_lt product) positive.le
  obtain ⟨d, rest, final, run, approaches, stopped⟩ :=
    addDigits_approaches positive rate_fits nonneg N_fits product (Nat.le_add_right 32 0) start
  have final_le := approaches.size_le nonneg
  obtain ⟨whole, le, close⟩ := round_bounds approaches.size_nonneg (bounded final_le)
  refine ⟨_, d, ⟨max 32 ((out / rate).toNat + 1), ?_⟩, whole, ?_, ?_, approaches.digits⟩
  · intro passes enough
    have quotient : 0 ≤ out / rate := Int.ediv_nonneg out_nonneg positive.le
    have split : out = ((out / rate).toNat : Int) * rate + out % rate := by
      rw [Int.toNat_of_nonneg quotient, Int.mul_comm]
      exact (Int.mul_ediv_add_emod out rate).symm
    have counted := countWhole_eq positive (out / rate).toNat start.nonneg start.below le_rfl
      (by rw [zero_add, ← split]; exact out_fits) (show (out / rate).toNat < passes by omega)
    rw [← split, zero_add, Int.toNat_of_nonneg quotient] at counted
    have size_fits := bounded (start.size_le nonneg)
    have size_nonneg := start.size_nonneg
    rw [asrcGetOutputBufferSize, counted, Option.bind_some, asInt_eq (by omega) size_fits,
      addDigits_more (by omega) run, Option.map_some]
  · exact (Int.mul_le_mul_of_nonneg_left le positive.le).trans final_le
  · refine (approaches.lt_six positive stopped).trans_le ?_
    apply Int.mul_le_mul_of_nonneg_left _ positive.le
    omega

end Result

theorem asrcGetOutputBufferSize_approximates {N rate out : Int} (nonneg : 0 ≤ N)
    (N_fits : N < 2 ^ 31) (positive : 0 < rate) (rate_fits : rate < 2 ^ 30) (out_nonneg : 0 ≤ out)
    (out_fits : out < 2 ^ 31) (fits : ⌈(out : ℝ) / rate⌉ * N < 2 ^ 31) :
    ∃ result : Int, (∃ enough, ∀ passes ≥ enough,
        asrcGetOutputBufferSize passes N rate out = some result) ∧
      8 ∣ result ∧ (result : ℝ) ≤ N * out / rate ∧
      (N * out / rate : ℝ) - result < Real.logb 2 (N + 1) + 14 := by
  have real_pos : (0 : ℝ) < rate := by exact_mod_cast positive
  have ceiling : out ≤ ⌈(out : ℝ) / rate⌉ * rate := by
    have above := Int.le_ceil ((out : ℝ) / rate)
    rw [div_le_iff₀ real_pos] at above
    exact_mod_cast above
  have product : N * out < rate * 2 ^ 31 := by
    calc N * out ≤ N * (⌈(out : ℝ) / rate⌉ * rate) := Int.mul_le_mul_of_nonneg_left ceiling nonneg
      _ = rate * (⌈(out : ℝ) / rate⌉ * N) := by ring
      _ < rate * 2 ^ 31 := Int.mul_lt_mul_of_pos_left fits positive
  obtain ⟨result, d, terminates, multiple, lower, upper, digits⟩ :=
    asrcGetOutputBufferSize_bounds nonneg N_fits positive rate_fits out_nonneg out_fits product
  refine ⟨result, terminates, multiple, ?_, ?_⟩
  · rw [le_div_iff₀ real_pos]
    have swapped : result * rate ≤ N * out := by rwa [Int.mul_comm result]
    exact_mod_cast swapped
  · have count : (d : ℝ) ≤ Real.logb 2 (N + 1) := by
      have size : (0 : ℝ) < N + 1 := by exact_mod_cast (show (0 : Int) < N + 1 by omega)
      rw [Real.le_logb_iff_rpow_le (by norm_num) size, Real.rpow_natCast]
      exact_mod_cast digits
    have short : (N * out / rate : ℝ) < result + d + 13 := by
      rw [div_lt_iff₀ real_pos]
      have swapped : N * out < (result + d + 13) * rate := by rwa [Int.mul_comm _ rate]
      exact_mod_cast swapped
    linarith

/-- From 44100 to 48000 samples. -/
theorem asrcGetOutputBufferSize_approximates_4096 :
    ∃ result : Int, (∃ enough, ∀ passes ≥ enough,
        asrcGetOutputBufferSize passes 4096 44100 48000 = some result) ∧
      8 ∣ result ∧ (result : ℝ) ≤ (4096 : Int) * (48000 : Int) / (44100 : Int) ∧
      ((4096 : Int) * (48000 : Int) / (44100 : Int) : ℝ) - result <
        Real.logb 2 ((4096 : Int) + 1) + 14 :=
  asrcGetOutputBufferSize_approximates (by decide) (by decide) (by decide) (by decide)
    (by decide) (by decide) (by norm_num)

end ImxTest.Asrc.OutputSize
