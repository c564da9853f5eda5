import ImxTest.Asrc.WaveFile
import ImxTest.Lib.Exits
import ImxTest.Lib.Fuel
import Mathlib.Data.Int.GCD
import Mathlib.Data.Nat.Prime.Basic

/-!
# When the header parser ends

The size of a chunk is signed and is used for a relative seek, so that a chunk can lead
back to one before it.  The sample rate is subtracted from the output rate for as long as
it is not larger; a rate of zero leaves an output rate as it is.
-/

set_option autoImplicit false

namespace ImxTest.Asrc

open ImxTest.Lib.Exits (bind_eq_ok)
open ImxTest.Lib.Fuel ImxTest.Lib.LittleEndian
open OutputSize

/-! ## The output size -/

section Size
variable {rate out : Int}

theorem asInt_sub (n m : Int) : asInt (asInt n - m) = asInt (n - m) :=
  Int.bmod_sub_bmod

/-- The first loop goes on while the rate is not larger than what is left. -/
theorem countWhole_eq_none_iff (rate i rest : Int) (passes : Nat) :
    countWhole rate passes i (asInt rest) = none ↔
      ∀ n < passes, rate ≤ asInt (rest - n * rate) := by
  induction passes generalizing i rest with
  | zero => simp [countWhole]
  | succ passes ih =>
      rw [countWhole]
      by_cases going : asInt rest ≥ rate
      · rw [if_pos going, asInt_sub, ih]
        constructor
        · intro all n less
          cases n with
          | zero => simpa using going
          | succ n =>
              have later := all n (by omega)
              have same : rest - rate - n * rate = rest - ((n + 1 : Nat) : Int) * rate := by
                push_cast
                ring
              rwa [same] at later
        · intro all n less
          have later := all (n + 1) (by omega)
          have same : rest - ((n + 1 : Nat) : Int) * rate = rest - rate - n * rate := by
            push_cast
            ring
          rwa [same] at later
      · rw [if_neg going]
        refine iff_of_false (Option.some_ne_none _) fun all => going ?_
        simpa using all 0 (by omega)

structure Counted (rate out : Int) : Prop where
  notZero : rate = 0 → out < 0
  notLowest : rate ≠ -2 ^ 31

/-- A power of two that is no multiple of the modulus divides half of it. -/
theorem gcd_dvd_half {n : Nat} (positive : 0 < n) (small : n < 2 ^ 31) :
    n.gcd (2 ^ 32) ∣ 2 ^ 31 := by
  obtain ⟨e, -, power⟩ := (Nat.dvd_prime_pow Nat.prime_two).mp (Nat.gcd_dvd_right n (2 ^ 32))
  have below : 2 ^ e < 2 ^ 31 := power ▸ (Nat.gcd_le_left _ positive).trans_lt small
  rw [power]
  exact Nat.pow_dvd_pow 2 ((Nat.pow_lt_pow_iff_right (by decide)).mp below).le

/-- With a negative rate the subtractions go up and wrap round; they come to every value
with the right remainder, one of which is below the rate. -/
theorem exists_below_negative (negative : rate < 0) (low : -2 ^ 31 < rate) (out : Int) :
    ∃ n : Nat, asInt (out - n * rate) < rate := by
  obtain ⟨step, same⟩ := Int.eq_ofNat_of_zero_le (show 0 ≤ -rate by omega)
  have divides := Nat.gcd_dvd_left step (2 ^ 32)
  have half := gcd_dvd_half (show 0 < step by omega) (by omega)
  have positive : 0 < step.gcd (2 ^ 32) := Nat.gcd_pos_of_pos_left _ (by omega)
  have less : step.gcd (2 ^ 32) < 2 ^ 32 := (Nat.le_of_dvd (by omega) half).trans_lt (by omega)
  obtain ⟨m, -, unit⟩ := Nat.exists_mul_mod_eq_gcd less
  generalize step.gcd (2 ^ 32) = g at divides half positive unit
  have room : g ≤ 2 ^ 31 - step := Nat.le_of_dvd (by omega) (Nat.dvd_sub half divides)
  -- `g * turns` is what the remainder of the lowest values is away from `out`.
  have division := Int.mul_ediv_add_emod (out + 2 ^ 31) g
  have above := Int.emod_nonneg (out + 2 ^ 31) (show (g : Int) ≠ 0 by omega)
  have below := Int.emod_lt_of_pos (out + 2 ^ 31) (show (0 : Int) < g by omega)
  generalize (out + 2 ^ 31) / (g : Int) = turns at division
  generalize (out + 2 ^ 31) % (g : Int) = rest at division above below
  obtain ⟨count, counted⟩ := Int.eq_ofNat_of_zero_le
    (Int.emod_nonneg (-turns) (show (2 ^ 32 : Int) ≠ 0 by decide))
  refine ⟨m * count, ?_⟩
  have reached : asInt (out - ((m * count : Nat) : Int) * rate) = rest - 2 ^ 31 := by
    refine asInt_eq_of_dvd (by omega) (by omega) ?_
    have unitInt : (2 : Int) ^ 32 ∣ step * m - g := by
      have product : ((step * m : Nat) : Int) = step * m := Nat.cast_mul step m
      generalize step * m = total at unit product
      exact ⟨(total / 2 ^ 32 : Nat), by omega⟩
    have turnsInt : (2 : Int) ^ 32 ∣ count + turns := ⟨-(-turns / 2 ^ 32), by omega⟩
    have sum : out - ((m * count : Nat) : Int) * rate - (rest - 2 ^ 31) =
        (step * m - g) * count + g * (count + turns) := by
      have rate_eq : rate = -(step : Int) := by omega
      rw [rate_eq, Nat.cast_mul]
      linear_combination -division
    rw [sum]
    exact dvd_add (unitInt.mul_right _) (turnsInt.mul_left _)
  rw [reached]
  omega

theorem exists_below_iff (low : -2 ^ 31 ≤ rate) (outLow : -2 ^ 31 ≤ out) (outHigh : out < 2 ^ 31) :
    (∃ n : Nat, asInt (out - n * rate) < rate) ↔ Counted rate out := by
  constructor
  · rintro ⟨n, below⟩
    refine ⟨fun zero => ?_, fun lowest => ?_⟩
    · rw [zero, mul_zero, sub_zero, asInt_eq outLow outHigh] at below
      exact below
    · have bound := (asInt_bounds (out - n * rate)).1
      omega
  · rintro ⟨notZero, notLowest⟩
    rcases lt_trichotomy rate 0 with negative | zero | positive
    · exact exists_below_negative negative (by omega) out
    · refine ⟨0, ?_⟩
      simpa [asInt_eq outLow outHigh, zero] using notZero zero
    · by_cases already : out < rate
      · exact ⟨0, by simpa [asInt_eq outLow outHigh] using already⟩
      · have division := Int.mul_ediv_add_emod out rate
        have above := Int.emod_nonneg out positive.ne'
        have below := Int.emod_lt_of_pos out positive
        have quotient := Int.ediv_nonneg (show 0 ≤ out by omega) positive.le
        refine ⟨(out / rate).toNat, ?_⟩
        rw [Int.toNat_of_nonneg quotient]
        have left : out - out / rate * rate = out % rate := by
          linear_combination -division
        rw [left, asInt_eq (by omega) (by omega)]
        exact below

theorem countWhole_more {passes more : Nat} {i rest : Int} {whole : Int × Int} (le : passes ≤ more)
    (run : countWhole rate passes i rest = some whole) :
    countWhole rate more i rest = some whole := by
  induction passes generalizing more i rest with
  | zero => cases run
  | succ passes ih =>
      obtain ⟨more, rfl⟩ := Nat.exists_eq_add_of_le' (Nat.zero_lt_of_lt le)
      rw [countWhole] at run ⊢
      split at run
      · rename_i going
        rw [if_pos going]
        exact ih (Nat.le_of_succ_le_succ le) run
      · rename_i stopped
        rw [if_neg stopped]
        exact run

/-- The parts of the input size are used up in 31 passes. -/
theorem addDigits_isSome {N : Int} (fits : N < 2 ^ 31) (rate : Int) {passes i : Nat}
    (enough : 31 ≤ i + passes) (rest size : Int) :
    ∃ final, addDigits N rate (passes + 1) i rest size = some final := by
  have small : ∀ {i : Nat}, 30 ≤ i → ¬ N >>> i > 2 := by
    intro i late more
    rw [Int.shiftRight_eq_div_pow] at more
    have power : (2 : Int) ^ 30 ≤ 2 ^ i := pow_le_pow_right₀ (by decide) late
    have product := Int.mul_ediv_self_le (x := N) (k := ((2 ^ i : Nat) : Int)) (by positivity)
    push_cast at more product
    nlinarith
  induction passes generalizing i rest size with
  | zero =>
      rw [addDigits, if_neg fun going => small (by omega) going.1]
      exact ⟨size, rfl⟩
  | succ passes ih =>
      rw [addDigits]
      split
      · split
        · exact ih (by omega) _ _
        · exact ih (by omega) _ _
      · exact ⟨size, rfl⟩

theorem asrcGetOutputBufferSize_more {passes more : Nat} {N size : Int} (le : passes ≤ more)
    (run : asrcGetOutputBufferSize passes N rate out = some size) :
    asrcGetOutputBufferSize more N rate out = some size := by
  obtain ⟨whole, counted, digits⟩ := Option.bind_eq_some_iff.mp run
  obtain ⟨final, added, rounded⟩ := Option.map_eq_some_iff.mp digits
  rw [asrcGetOutputBufferSize, countWhole_more le counted, Option.bind_some,
    addDigits_more le added, Option.map_some, rounded]

theorem exists_size_iff {N : Int} (fits : N < 2 ^ 31) (low : -2 ^ 31 ≤ rate)
    (outLow : -2 ^ 31 ≤ out) (outHigh : out < 2 ^ 31) :
    (∃ passes size, asrcGetOutputBufferSize passes N rate out = some size) ↔ Counted rate out := by
  rw [← exists_below_iff low outLow outHigh]
  constructor
  · rintro ⟨passes, size, run⟩
    obtain ⟨whole, counted, -⟩ := Option.bind_eq_some_iff.mp run
    by_contra always
    push Not at always
    have never := (countWhole_eq_none_iff rate 0 out passes).mpr fun n _ => always n
    rw [asInt_eq outLow outHigh, counted] at never
    cases never
  · rintro ⟨n, below⟩
    have ended : countWhole rate (n + 1) 0 out ≠ none := by
      intro none_left
      rw [← asInt_eq outLow outHigh, countWhole_eq_none_iff] at none_left
      exact absurd below (Int.not_lt.mpr (none_left n (by omega)))
    obtain ⟨whole, counted⟩ := Option.ne_none_iff_exists'.mp ended
    obtain ⟨final, added⟩ := addDigits_isSome fits rate (show 31 ≤ 1 + (n + 31) by omega) whole.2
      (asInt (whole.1 * N))
    refine ⟨n + 31 + 1, asInt ((final >>> (3 : Nat)) <<< (3 : Nat)), ?_⟩
    rw [asrcGetOutputBufferSize, countWhole_more (by omega) counted, Option.bind_some, added,
      Option.map_some]

end Size

theorem outputSize_eq_running {fuel : Nat} {info : Info} :
    outputSize fuel info = .error .running ↔
      asrcGetOutputBufferSize fuel info.inputDataLen info.sampleRate info.outputSampleRate =
        none := by
  rw [outputSize]
  split
  · next none_left => exact iff_of_true rfl none_left
  · next size some_size =>
      rw [some_size]
      exact iff_of_false (by intro out; cases out) (Option.some_ne_none _)

theorem outputSize_steady (info : Info) : Steady .running fun fuel => outputSize fuel info := by
  intro fuel more le ended
  obtain ⟨size, run⟩ := Option.ne_none_iff_exists'.mp (mt outputSize_eq_running.mpr ended)
  dsimp only
  rw [outputSize, outputSize, run, asrcGetOutputBufferSize_more le run]

theorem outputSize_ends {info : Info} (fits : info.inputDataLen < 2 ^ 31)
    (low : -2 ^ 31 ≤ info.sampleRate) (outLow : -2 ^ 31 ≤ info.outputSampleRate)
    (outHigh : info.outputSampleRate < 2 ^ 31) :
    Ends .running (fun fuel => outputSize fuel info) ↔
      Counted info.sampleRate info.outputSampleRate := by
  rw [(outputSize_steady info).ends_iff, ← exists_size_iff fits low outLow outHigh]
  refine exists_congr fun fuel => ?_
  rw [Ne, outputSize_eq_running, ← Ne, Option.ne_none_iff_exists']

/-! ## The loops over the chunks -/

section Chunks
variable {file : File} {tag : Word}

def skipStep (file : File) (tag : Word) (scan : Scan) : Option Scan :=
  if scan.chunkId = tag then none
  else if file.length < (scan.skipChunk file).pos + 4 then none
  else some ((scan.skipChunk file).readId file)

theorem skipTo_eq_running {fuel : Nat} {scan : Scan} :
    skipTo file tag fuel scan = .error .running ↔ after (skipStep file tag) fuel scan ≠ none := by
  induction fuel generalizing scan with
  | zero => exact iff_of_true rfl (Option.some_ne_none _)
  | succ fuel ih =>
      rw [skipTo, after, skipStep]
      split
      · exact iff_of_false (by intro out; cases out) fun going => going rfl
      · split
        · exact iff_of_false (by intro out; cases out) fun going => going rfl
        · exact ih

theorem skipTo_steady (file : File) (tag : Word) (scan : Scan) :
    Steady .running fun fuel => skipTo file tag fuel scan := by
  intro fuel more le ended
  dsimp only at ended ⊢
  induction fuel generalizing more scan with
  | zero => exact absurd rfl ended
  | succ fuel ih =>
      obtain ⟨more, rfl⟩ := Nat.exists_eq_add_of_le' (Nat.zero_lt_of_lt le)
      rw [skipTo] at ended ⊢
      rw [skipTo]
      split
      · rfl
      · next other =>
          rw [if_neg other] at ended
          split
          · rfl
          · next inside =>
              rw [if_neg inside] at ended
              exact ih _ more (Nat.le_of_succ_le_succ le) ended

/-- The states of the loop are finitely many: a chunk that it goes on with lies in the
file. -/
theorem skipStep_finite (file : File) (tag : Word) (scan : Scan) :
    {other | ∃ passes, after (skipStep file tag) passes scan = some other}.Finite := by
  let bound := max file.length scan.pos
  have bytes : Finite Byte := Finite.of_injective UInt8.toFin fun _ _ => UInt8.toFin_inj.mp
  have all : {other : Scan | other.pos ≤ bound} ⊆
      Set.range fun parts : Fin (bound + 1) × Word × Word =>
        (⟨parts.1, parts.2.1, parts.2.2⟩ : Scan) := by
    intro other inside
    exact ⟨(⟨other.pos, Nat.lt_succ_of_le inside⟩, other.chunkId, other.chunkSize), rfl⟩
  have kept : ∀ here next : Scan, here.pos ≤ bound → skipStep file tag here = some next →
      next.pos ≤ bound := by
    intro here next _ pass
    rw [skipStep] at pass
    split at pass
    · cases pass
    · split at pass
      · cases pass
      · cases pass
        have read := Nat.min_le_right 4 (file.length - (here.skipChunk file).pos)
        have le := le_max_left file.length scan.pos
        change (here.skipChunk file).pos + min 4 (file.length - (here.skipChunk file).pos) ≤ bound
        omega
  refine ((Set.finite_range _).subset all).subset ?_
  rintro other ⟨passes, reached⟩
  exact after_keeps kept (le_max_right _ _) reached

theorem skipTo_ends (file : File) (tag : Word) (scan : Scan) :
    Ends .running (fun fuel => skipTo file tag fuel scan) ↔
      ¬ LeadsBack (skipStep file tag) scan := by
  rw [(skipTo_steady file tag scan).ends_iff,
    ← ends_iff_not_leadsBack (skipStep_finite file tag scan)]
  exact exists_congr fun fuel => not_iff_comm.mp skipTo_eq_running.symm

end Chunks

/-! ## The parser -/

section Parts
variable {file : File}

theorem findRiff_ends (state : State) :
    Ends .running (fun fuel => findRiff file fuel state) ↔
      ¬ LeadsBack (skipStep file riff) ({ state.scan with pos := 0 }.readId file) :=
  ((skipTo_steady file riff _).ends_bind_of_next fun _ => ends_ok _).trans
    (skipTo_ends file riff _)

theorem findFmt_ends (state : State) :
    Ends .running (fun fuel => findFmt file fuel state) ↔
      ¬ LeadsBack (skipStep file fmt) (state.scan.readId file) :=
  ((skipTo_steady file fmt _).ends_bind_of_next fun _ => ends_ok _).trans
    (skipTo_ends file fmt _)

theorem findData_ends (state : State) :
    Ends .running (fun fuel => findData file fuel state) ↔
      ¬ LeadsBack (skipStep file dataTag) (state.scan.readId file) :=
  ((skipTo_steady file dataTag _).ends_bind_of_next fun _ => ends_ok _).trans
    (skipTo_ends file dataTag _)

theorem findRiff_steady (state : State) : Steady .running fun fuel => findRiff file fuel state :=
  (skipTo_steady file riff _).bind fun _ => .const _

theorem findFmt_steady (state : State) : Steady .running fun fuel => findFmt file fuel state :=
  (skipTo_steady file fmt _).bind fun _ => .const _

theorem findData_steady (state : State) : Steady .running fun fuel => findData file fuel state :=
  (skipTo_steady file dataTag _).bind fun _ => .const _

def Gives (part : Nat → State → Run State) (before after : State) : Prop :=
  ∃ fuel, part fuel before = .ok after

theorem findRiff_info {before after : State} (gives : Gives (findRiff file) before after) :
    after.info = before.info := by
  obtain ⟨fuel, run⟩ := gives
  obtain ⟨scan, -, run⟩ := bind_eq_ok run
  cases run
  rfl

theorem findFmt_info {before after : State} (gives : Gives (findFmt file) before after) :
    after.info.outputSampleRate = before.info.outputSampleRate ∧
      -2 ^ 31 ≤ after.info.sampleRate := by
  obtain ⟨fuel, run⟩ := gives
  obtain ⟨scan, -, run⟩ := bind_eq_ok run
  cases run
  rw [State.takeFormat, State.readFormat_info, State.freadHeader_info]
  exact ⟨rfl, (Header.int_bounds _ _).1⟩

theorem findData_info {before after : State} (gives : Gives (findData file) before after) :
    after.info.outputSampleRate = before.info.outputSampleRate ∧
      after.info.sampleRate = before.info.sampleRate ∧ after.info.inputDataLen < 2 ^ 31 := by
  obtain ⟨fuel, run⟩ := gives
  obtain ⟨scan, -, run⟩ := bind_eq_ok run
  cases run
  rw [State.takeData, State.freadHeader_info]
  exact ⟨rfl, rfl, (Word.toInt_bounds _).2⟩

/-- No chain of chunks leads back to where it was before, and the rates are such that
their ratio is counted to an end. -/
structure ChainsEnd (file : File) (start : Start) : Prop where
  riff : ¬ LeadsBack (skipStep file riff) ({ start.state.scan with pos := 0 }.readId file)
  fmt : ∀ a, Gives (findRiff file) start.state a →
    ¬ LeadsBack (skipStep file fmt) (a.scan.readId file)
  data : ∀ a b, Gives (findRiff file) start.state a → Gives (findFmt file) a b →
    ¬ LeadsBack (skipStep file dataTag) (b.scan.readId file)
  rates : ∀ a b c, Gives (findRiff file) start.state a → Gives (findFmt file) a b →
    Gives (findData file) b c → Counted c.info.sampleRate start.outputSampleRate

theorem outputSize_ends_of_gives {start : Start} {a b c : State}
    (riffGives : Gives (findRiff file) start.state a) (fmtGives : Gives (findFmt file) a b)
    (dataGives : Gives (findData file) b c) :
    Ends .running (fun fuel => outputSize fuel c.info >>= fun size => .ok (c.patch size)) ↔
      Counted c.info.sampleRate start.outputSampleRate := by
  obtain ⟨fmtOut, low⟩ := findFmt_info fmtGives
  obtain ⟨dataOut, rate, fits⟩ := findData_info dataGives
  have out : c.info.outputSampleRate = start.outputSampleRate := by
    rw [dataOut, fmtOut, findRiff_info riffGives]
    rfl
  rw [(outputSize_steady c.info).ends_bind_of_next fun size => ends_ok (c.patch size),
    outputSize_ends fits (rate ▸ low) (out ▸ start.low) (out ▸ start.high), out]

end Parts

/-- A chunk of size -8, in front of the "RIFF" chunk. -/
def chunkBack : File :=
  [0x78, 0x78, 0x78, 0x78, 0xf8, 0xff, 0xff, 0xff]

def otherTag : Word := ![0x78, 0x78, 0x78, 0x78]

def minusEight : Word := ![0xf8, 0xff, 0xff, 0xff]

theorem chunkBack_pass (old : Word) :
    skipStep chunkBack riff ⟨4, otherTag, old⟩ = some ⟨4, otherTag, minusEight⟩ := by
  have size : freadWord chunkBack 4 old = minusEight := by
    funext i
    fin_cases i <;> rfl
  have sized : Scan.readSize chunkBack ⟨4, otherTag, old⟩ = ⟨8, otherTag, minusEight⟩ :=
    congrArg (Scan.mk 8 otherTag) size
  have value : minusEight.toInt = -8 := by decide +kernel
  have skipped : Scan.skipChunk chunkBack ⟨4, otherTag, old⟩ = ⟨0, otherTag, minusEight⟩ := by
    rw [Scan.skipChunk, sized, value]
    rfl
  have tag : freadWord chunkBack 0 otherTag = otherTag := by decide
  have again : Scan.readId chunkBack ⟨0, otherTag, minusEight⟩ = ⟨4, otherTag, minusEight⟩ :=
    congrArg (fun id => Scan.mk 4 id minusEight) tag
  rw [skipStep, if_neg (show ¬ otherTag = riff by decide), skipped, if_neg (by decide), again]

end ImxTest.Asrc
