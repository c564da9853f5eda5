import ImxTest.Asrc.WaveFile
import ImxTest.Lib.Exits
import Mathlib.Logic.Function.Iterate

/-!
# How often the sample loops run

The loops of `bitshift` and `convert_data` test their counters behind the first pass, so
that a counter which is zero at the start wraps round and comes back to zero after all its
values.
-/

set_option autoImplicit false

namespace ImxTest.Asrc

open ImxTest.Lib.Exits (bind_eq_ok toOption_eq_some)
open ImxTest.Lib.LittleEndian
open OutputSize

/-! ## The loop of `bitshift` -/

section Samples
variable {file : File} {width : Nat} {shape : Nat → Nat}

theorem asInt_eq_zero_iff (n : Int) : asInt n = 0 ↔ 2 ^ 32 ∣ n :=
  Int.dvd_iff_bmod_eq_zero.symm

/-- A counter that is `k + 1` up to whole turns lets the loop make so many passes. -/
theorem sampleLoop_eq (k : Nat) {nleft : Int} (turns : 2 ^ 32 ∣ nleft - (k + 1))
    (small : k < 2 ^ 32) {fuel : Nat} (enough : k < fuel) (samples : Samples) :
    sampleLoop file width shape fuel nleft samples =
      .ok ((Samples.pass file width shape)^[k + 1] samples) := by
  obtain ⟨fuel, rfl⟩ := Nat.exists_eq_add_of_lt (Nat.zero_lt_of_lt enough)
  rw [Nat.zero_add] at enough ⊢
  induction k generalizing nleft fuel samples with
  | zero =>
      have ended : asInt (nleft - 1) = 0 := (asInt_eq_zero_iff _).mpr (by simpa using turns)
      rw [sampleLoop, if_neg (not_not.mpr ended)]
      rfl
  | succ k ih =>
      have going : asInt (nleft - 1) ≠ 0 := by
        rw [Ne, asInt_eq_zero_iff]
        omega
      have next : (2 : Int) ^ 32 ∣ asInt (nleft - 1) - (k + 1) := by
        have wrapped := dvd_asInt_sub (nleft - 1)
        omega
      obtain ⟨fuel, rfl⟩ := Nat.exists_eq_add_of_lt (show 0 < fuel by omega)
      rw [Nat.zero_add] at enough ⊢
      rw [sampleLoop, if_pos going, ih next (by omega) _ _ (by omega)]
      rfl

/-- Each run of the loop makes a pass at least, and as many as its counter says up to whole
turns. -/
theorem sampleLoop_ok {fuel : Nat} {nleft : Int} {samples last : Samples}
    (run : sampleLoop file width shape fuel nleft samples = .ok last) :
    ∃ k : Nat, last = (Samples.pass file width shape)^[k + 1] samples ∧
      2 ^ 32 ∣ nleft - (k + 1) := by
  induction fuel generalizing nleft samples with
  | zero => cases run
  | succ fuel ih =>
      rw [sampleLoop] at run
      have wrapped := dvd_asInt_sub (nleft - 1)
      split at run
      · obtain ⟨k, rfl, turns⟩ := ih run
        refine ⟨k + 1, rfl, ?_⟩
        push_cast
        omega
      · next ended =>
          cases run
          refine ⟨0, rfl, ?_⟩
          rw [not_not.mp ended] at wrapped
          push_cast
          omega

theorem exists_sampled (nleft : Int) (samples : Samples) :
    ∃ fuel last, sampleLoop file width shape fuel nleft samples = .ok last := by
  have nonneg := Int.emod_nonneg (nleft - 1) (show (2 : Int) ^ 32 ≠ 0 by decide)
  have below := Int.emod_lt_of_pos (nleft - 1) (show (0 : Int) < 2 ^ 32 by decide)
  refine ⟨((nleft - 1) % 2 ^ 32).toNat + 1, _, sampleLoop_eq ((nleft - 1) % 2 ^ 32).toNat ?_
    (by omega) (Nat.lt_succ_self _) samples⟩
  omega

theorem stored_length (n : Nat) (samples : Samples) :
    ((Samples.pass file width shape)^[n] samples).stored.length = samples.stored.length + n := by
  induction n generalizing samples with
  | zero => rfl
  | succ n ih =>
      rw [Function.iterate_succ_apply, ih, Samples.pass, List.length_append]
      simp only [List.length_cons, List.length_nil]
      omega

end Samples

/-! ## What `play_file` leaves -/

/-- The output that is counted and the output that is left make up the same sum. -/
theorem playPass_sum (info : Info) (reported : Nat) :
    asInt ((info.playPass reported).outputUsed + (info.playPass reported).outputDataLen) =
      asInt (info.outputUsed + info.outputDataLen) := by
  have used : info.playInput.outputUsed = info.outputUsed := rfl
  have left : info.playInput.outputDataLen = info.outputDataLen := rfl
  rw [Info.playPass, Info.playOutput, used, left]
  split
  · have moved : info.outputUsed + reported + (info.outputDataLen - reported) =
        info.outputUsed + info.outputDataLen := by ring
    change asInt (asInt (info.outputUsed + reported) + asInt (info.outputDataLen - reported)) = _
    rw [asInt, asInt, asInt, ← Int.add_bmod, moved]
    rfl
  · change asInt (asInt (info.outputUsed + info.outputDataLen) + 0) = _
    rw [add_zero, asInt, asInt, Int.bmod_bmod]

theorem playPass_used_eq (info : Info) (reported : Nat) :
    asInt (info.playPass reported).outputUsed = (info.playPass reported).outputUsed := by
  rw [Info.playPass, Info.playOutput]
  split
  · exact Int.bmod_bmod
  · exact Int.bmod_bmod

theorem playLoop_used {reports : List Nat} {info played : Info}
    (run : playLoop reports info = .ok played) :
    played.outputUsed = asInt (info.outputUsed + info.outputDataLen) := by
  induction reports generalizing info with
  | nil => cases run
  | cons reported rest ih =>
      rw [playLoop] at run
      split at run
      · next ended =>
          cases run
          rw [← playPass_sum info reported, ended, add_zero, playPass_used_eq]
      · rw [ih run, playPass_sum]

theorem playFile_used {reports : List Nat} {info played : Info}
    (run : playFile reports info = .ok played) :
    played.outputUsed = asInt info.outputDataLen := by
  rw [playLoop_used run, zero_add]

/-- A report that is not too small ends the loop. -/
theorem playFile_full (info : Info) : ∃ played, playFile [2 ^ 32 - 1] info = .ok played := by
  have below := unsigned_lt (2 ^ 32) { info with outputUsed := 0 }.playInput.outputDataLen
    (by decide)
  have ended : ({ info with outputUsed := 0 }.playPass (2 ^ 32 - 1)).outputDataLen = 0 := by
    rw [Info.playPass, Info.playOutput, if_neg (by omega)]
  exact ⟨_, if_pos ended⟩

/-! ## The loop of `convert_data` -/

section Write
variable {outputBuffer : Nat → Nat}

theorem writeLoop_eq (k : Nat) {size : Nat} (turns : 2 ^ 32 ∣ (size : Int) - 4 * (k + 1))
    (small : k < 2 ^ 30) {fuel : Nat} (enough : k < fuel) (i : Nat) :
    ∃ bytes, writeLoop outputBuffer fuel i size = .ok bytes ∧ bytes.length = 4 * (k + 1) := by
  obtain ⟨fuel, rfl⟩ := Nat.exists_eq_add_of_lt (Nat.zero_lt_of_lt enough)
  rw [Nat.zero_add] at enough ⊢
  induction k generalizing size fuel i with
  | zero =>
      refine ⟨_, ?_, leEncode_length 4 (outputBuffer i &&& 0x00FFFFFF)⟩
      rw [writeLoop, if_neg (by omega)]
  | succ k ih =>
      obtain ⟨fuel, rfl⟩ := Nat.exists_eq_add_of_lt (show 0 < fuel by omega)
      rw [Nat.zero_add] at enough ⊢
      have next : (2 : Int) ^ 32 ∣
          ((size + (2 ^ 32 - 4)) % 2 ^ 32 : Nat) - 4 * ((k : Int) + 1) := by omega
      obtain ⟨bytes, run, length⟩ := ih next (by omega) (i + 1) fuel (by omega)
      refine ⟨leEncode 4 (outputBuffer i &&& 0x00FFFFFF) ++ bytes, ?_, ?_⟩
      · rw [writeLoop, if_pos (by omega), run]
        rfl
      · rw [List.length_append, leEncode_length, length]
        omega

/-- The loop writes words, as many as its counter says up to whole turns. -/
theorem writeLoop_ok {fuel i size : Nat} {bytes : List Byte}
    (run : writeLoop outputBuffer fuel i size = .ok bytes) :
    ∃ k : Nat, bytes.length = 4 * (k + 1) ∧ 2 ^ 32 ∣ (size : Int) - 4 * (k + 1) := by
  induction fuel generalizing i size bytes with
  | zero => cases run
  | succ fuel ih =>
      rw [writeLoop] at run
      split at run
      · obtain ⟨rest, later, run⟩ := bind_eq_ok run
        cases run
        obtain ⟨k, length, turns⟩ := ih later
        refine ⟨k + 1, ?_, by omega⟩
        rw [List.length_append, leEncode_length, length]
        omega
      · cases run
        exact ⟨0, leEncode_length 4 _, by omega⟩

theorem convertData_eq {fuel : Nat} {state : State} {bytes : List Byte}
    (written : writeLoop outputBuffer fuel 0 state.finish.2 = .ok bytes) :
    convertData outputBuffer fuel state =
      .ok ⟨state.finish.1.header.get 0 (asInt (state.header.int 16 + 28)).toNat, bytes⟩ := by
  rw [convertData, written]
  rfl

end Write

/-! ## The whole run -/

/-- The size that `convert_data` reads back from the array after it has written both sizes
of the header. -/
def readBack (formatSize outputUsed : Int) : Int :=
  ((Header.cleared.put (asInt (24 + formatSize))
      (leEncode 4 (unsigned (2 ^ 32) outputUsed))).put 4
    (leEncode 4 (unsigned (2 ^ 32) (asInt (asInt (outputUsed + 20) + formatSize))))).int
      (asInt (24 + formatSize))

/-- A header that the parser has accepted, with samples that `bitshift` takes. -/
structure Input where
  file : File
  start : Start
  fuel : Nat
  state : State
  parsed : headerParser file fuel start.state = .ok state
  nonneg : 0 ≤ state.info.inputDataLen
  width : state.info.frameBits ≤ 16 ∨ state.info.frameBits = 24 ∨ state.info.frameBits = 32

namespace Input

def sampleSize (input : Input) : Int :=
  if input.state.info.frameBits ≤ 16 then 2 else 4

/-- The length of the output, which counts for widened samples. -/
def outputLen (input : Input) : Int :=
  if input.state.info.frameBits ≤ 16 then asInt (input.state.info.outputDataLen <<< (1 : Nat))
  else input.state.info.outputDataLen

/-- The size of the "fmt " chunk behind the length that is stored for widened samples. -/
def formatSize (input : Input) : Int :=
  if input.state.info.frameBits ≤ 16 then
    (input.state.header.put (asInt (24 + input.state.header.int 16))
      (leEncode 4 (unsigned (2 ^ 32) input.outputLen))).int 16
  else input.state.header.int 16

end Input

/-- Both loops run as often as there are samples. -/
structure RunsExactly (input : Input) (data : Word) (outputBuffer : Nat → Nat) : Prop where
  stores : ∃ fuel shifted, bitshift input.file data fuel input.state = .ok shifted ∧
    (shifted.2.length : Int) = input.state.info.inputDataLen / input.sampleSize
  writes : ∀ fuel shifted reports played,
    bitshift input.file data fuel input.state = .ok shifted →
      playFile reports shifted.1.info = .ok played →
        ∃ fuel output,
          convertData outputBuffer fuel { shifted.1 with info := played } = .ok output ∧
            (output.samples.length : Int) = played.outputUsed

structure HasSamples (input : Input) : Prop where
  sample : input.sampleSize ≤ input.state.info.inputDataLen
  output : 0 < input.outputLen
  apart : readBack input.formatSize input.outputLen = input.outputLen

section Sizes
variable {file : File} {state : State}

theorem headerParser_outputDataLen {fuel : Nat} {start : State}
    (parsed : headerParser file fuel start = .ok state) :
    8 ∣ state.info.outputDataLen ∧ -2 ^ 31 ≤ state.info.outputDataLen ∧
      state.info.outputDataLen < 2 ^ 31 := by
  obtain ⟨a, -, parsed⟩ := bind_eq_ok parsed
  obtain ⟨b, -, parsed⟩ := bind_eq_ok parsed
  obtain ⟨c, -, parsed⟩ := bind_eq_ok parsed
  obtain ⟨size, sized, parsed⟩ := bind_eq_ok parsed
  cases parsed
  change 8 ∣ size ∧ _ ≤ size ∧ size < _
  obtain ⟨whole, -, digits⟩ := Option.bind_eq_some_iff.mp (outputSize_eq_ok.mp sized)
  obtain ⟨final, -, rounded⟩ := Option.map_eq_some_iff.mp digits
  rw [← rounded]
  refine ⟨?_, asInt_bounds _⟩
  have turns := dvd_asInt_sub ((final >>> (3 : Nat)) <<< (3 : Nat))
  rw [Int.shiftLeft_eq] at turns ⊢
  push_cast at turns ⊢
  omega

theorem headerParser_inputDataLen {fuel : Nat} {start : State}
    (parsed : headerParser file fuel start = .ok state) :
    -2 ^ 31 ≤ state.info.inputDataLen ∧ state.info.inputDataLen < 2 ^ 31 := by
  obtain ⟨a, -, parsed⟩ := bind_eq_ok parsed
  obtain ⟨b, -, parsed⟩ := bind_eq_ok parsed
  obtain ⟨c, found, parsed⟩ := bind_eq_ok parsed
  obtain ⟨size, -, parsed⟩ := bind_eq_ok parsed
  cases parsed
  obtain ⟨scan, -, found⟩ := bind_eq_ok found
  cases found
  exact Word.toInt_bounds _

theorem shift_outputLen (input : Input) :
    input.state.shift.info.outputDataLen = input.outputLen := by
  unfold State.shift Input.outputLen
  by_cases narrow : input.state.info.frameBits ≤ 16
  · simp only [if_pos narrow]
    rfl
  · simp only [if_neg narrow]
    rfl

/-- The other fields that `bitshift` stores lie apart from the size. -/
theorem State.shift_formatSize (state : State) : state.shift.header.int 16 =
    if state.info.frameBits ≤ 16 then
      (state.header.put (asInt (24 + state.header.int 16)) (leEncode 4 (unsigned (2 ^ 32)
        (asInt (state.info.outputDataLen <<< (1 : Nat)))))).int 16
    else state.header.int 16 := by
  unfold State.shift
  by_cases narrow : state.info.frameBits ≤ 16
  · simp only [if_pos narrow]
    change Header.int (Header.put (Header.put (Header.put (Header.put (Header.put _ _ _) _ _)
      _ _) _ _) _ _) 16 = _
    rw [Header.int_put_other _ (.inl (by decide)), Header.int_put_other _ (.inl (by decide)),
      Header.int_put_other _ (.inl (by decide)),
      Header.int_put_other _ (.inr (by rw [leEncode_length]; decide))]
    rfl
  · simp only [if_neg narrow]
    exact Header.int_put_other _ (.inl (by decide))

theorem shift_formatSize (input : Input) :
    input.state.shift.header.int 16 = input.formatSize := by
  rw [State.shift_formatSize]
  unfold Input.formatSize Input.outputLen
  by_cases narrow : input.state.info.frameBits ≤ 16
  · simp only [if_pos narrow]
  · simp only [if_neg narrow]

theorem outputLen_bounds (input : Input) :
    4 ∣ input.outputLen ∧ -2 ^ 31 ≤ input.outputLen ∧ input.outputLen < 2 ^ 31 := by
  obtain ⟨eight, low, high⟩ := headerParser_outputDataLen input.parsed
  unfold Input.outputLen
  split
  · refine ⟨?_, asInt_bounds _⟩
    have turns := dvd_asInt_sub (input.state.info.outputDataLen <<< (1 : Nat))
    rw [Int.shiftLeft_eq] at turns ⊢
    push_cast at turns ⊢
    omega
  · exact ⟨by omega, low, high⟩

/-- What is read back depends on nothing else in the array. -/
theorem finish_size (state : State) : state.finish.2 =
    unsigned (2 ^ 32) (readBack (state.header.int 16) state.info.outputUsed) :=
  congrArg (unsigned (2 ^ 32)) (Header.int_put_put _ _ (leEncode_length 4 _) _)

/-- The sizes do not touch each other in a header whose "fmt " chunk has a size. -/
theorem readBack_eq {formatSize used : Int} (low : -2 ^ 31 ≤ used) (high : used < 2 ^ 31)
    (apart : asInt (24 + formatSize) ≤ 0 ∨ 8 ≤ asInt (24 + formatSize)) :
    readBack formatSize used = used := by
  have size : (leEncode 4 (unsigned (2 ^ 32)
      (asInt (asInt (used + 20) + formatSize)))).length = 4 := leEncode_length 4 _
  rw [readBack, Header.int_put_other _ (by rw [size]; omega)]
  exact Header.int_put_same _ low high

end Sizes

section Bitshift
variable {file : File} {data : Word} {fuel : Nat} {state : State}

theorem bitshift_eq {last : Samples}
    (sampled : sampleLoopOf file fuel state.info.frameBits
      (if state.info.frameBits ≤ 16 then state.info.inputDataLen >>> (1 : Nat)
        else state.info.inputDataLen >>> (2 : Nat)) ⟨state.scan.pos, data, []⟩ = .ok last) :
    bitshift file data fuel state =
      .ok ({ state.shift with scan := { state.scan with pos := last.pos } }, last.stored) := by
  rw [bitshift]
  simp only [sampled]
  rfl

theorem bitshift_state {shifted : State × List Nat}
    (run : bitshift file data fuel state = .ok shifted) :
    ∃ pos, shifted.1 = { state.shift with scan := { state.scan with pos := pos } } := by
  obtain ⟨samples, -, run⟩ := bind_eq_ok run
  cases run
  exact ⟨samples.pos, rfl⟩

theorem exists_shifted (file : File) (data : Word) (state : State) :
    ∃ fuel shifted, bitshift file data fuel state = .ok shifted := by
  have sampled : ∀ bits nleft samples, ∃ fuel last,
      sampleLoopOf file fuel bits nleft samples = .ok last := by
    intro bits nleft samples
    unfold sampleLoopOf
    split
    · exact exists_sampled nleft samples
    · split
      · exact exists_sampled nleft samples
      · split
        · exact exists_sampled nleft samples
        · exact ⟨0, samples, rfl⟩
  obtain ⟨fuel, last, sampled⟩ := sampled _ _ _
  exact ⟨fuel, _, bitshift_eq sampled⟩

end Bitshift

section Runs
variable (input : Input) {data : Word} {outputBuffer : Nat → Nat}

theorem sampleLoopOf_eq : ∃ width shape, ∀ fuel nleft samples,
    sampleLoopOf input.file fuel input.state.info.frameBits nleft samples =
      sampleLoop input.file width shape fuel nleft samples := by
  rcases input.width with narrow | middle | wide
  · exact ⟨2, _, fun _ _ _ => if_pos narrow⟩
  · refine ⟨4, id, fun fuel nleft samples => ?_⟩
    rw [sampleLoopOf, if_neg (by omega), if_pos middle]
  · refine ⟨4, fun data => data >>> 8 &&& 0x00FFFFFF, fun fuel nleft samples => ?_⟩
    rw [sampleLoopOf, if_neg (by omega), if_neg (by omega), if_pos wide]

theorem nleft_eq : (if input.state.info.frameBits ≤ 16 then
      input.state.info.inputDataLen >>> (1 : Nat)
    else input.state.info.inputDataLen >>> (2 : Nat)) =
    input.state.info.inputDataLen / input.sampleSize := by
  unfold Input.sampleSize
  split
  · exact Int.shiftRight_eq_div_pow _ _
  · exact Int.shiftRight_eq_div_pow _ _

theorem bitshift_ok {fuel : Nat} {shifted : State × List Nat}
    (run : bitshift input.file data fuel input.state = .ok shifted) :
    1 ≤ shifted.2.length ∧ shifted.1.info = input.state.shift.info ∧
      shifted.1.header = input.state.shift.header := by
  obtain ⟨width, shape, loop⟩ := sampleLoopOf_eq input
  obtain ⟨samples, sampled, run⟩ := bind_eq_ok run
  cases run
  rw [loop] at sampled
  obtain ⟨k, rfl, -⟩ := sampleLoop_ok sampled
  refine ⟨?_, rfl, rfl⟩
  rw [stored_length]
  exact Nat.le_add_left 1 _

theorem bitshift_stores (sample : input.sampleSize ≤ input.state.info.inputDataLen) :
    ∃ fuel shifted, bitshift input.file data fuel input.state = .ok shifted ∧
      (shifted.2.length : Int) = input.state.info.inputDataLen / input.sampleSize := by
  obtain ⟨width, shape, loop⟩ := sampleLoopOf_eq input
  obtain ⟨-, high⟩ := headerParser_inputDataLen input.parsed
  have size : input.sampleSize = 2 ∨ input.sampleSize = 4 := by
    unfold Input.sampleSize
    split
    · exact .inl rfl
    · exact .inr rfl
  obtain ⟨k, count⟩ : ∃ k : Nat,
      input.state.info.inputDataLen / input.sampleSize = k + 1 := by
    refine ⟨(input.state.info.inputDataLen / input.sampleSize - 1).toNat, ?_⟩
    rcases size with two | four
    · rw [two] at sample ⊢
      omega
    · rw [four] at sample ⊢
      omega
  have small : k < 2 ^ 32 := by
    rcases size with two | four
    · rw [two] at count
      omega
    · rw [four] at count
      omega
  let samples : Samples := ⟨input.state.scan.pos, data, []⟩
  have sampled : sampleLoopOf input.file (k + 1) input.state.info.frameBits
      (if input.state.info.frameBits ≤ 16 then input.state.info.inputDataLen >>> (1 : Nat)
        else input.state.info.inputDataLen >>> (2 : Nat)) samples =
      .ok ((Samples.pass input.file width shape)^[k + 1] samples) := by
    rw [loop, nleft_eq, count]
    exact sampleLoop_eq k (by rw [sub_self]; exact dvd_zero _) small (Nat.lt_succ_self k) samples
  refine ⟨k + 1, _, bitshift_eq sampled, ?_⟩
  rw [count]
  have length : ((Samples.pass input.file width shape)^[k + 1] samples).stored.length =
      0 + (k + 1) := stored_length (k + 1) samples
  rw [Nat.zero_add] at length
  exact_mod_cast length

theorem played_used {fuel : Nat} {shifted : State × List Nat} {reports : List Nat} {played : Info}
    (run : bitshift input.file data fuel input.state = .ok shifted)
    (playing : playFile reports shifted.1.info = .ok played) :
    played.outputUsed = input.outputLen := by
  obtain ⟨-, low, high⟩ := outputLen_bounds input
  rw [playFile_used playing, (bitshift_ok input run).2.1, shift_outputLen]
  exact Int.bmod_eq_of_le (by omega) (by omega)

/-- The counter that `convert_data` starts with. -/
theorem played_size {fuel : Nat} {shifted : State × List Nat} {reports : List Nat} {played : Info}
    (run : bitshift input.file data fuel input.state = .ok shifted)
    (playing : playFile reports shifted.1.info = .ok played) :
    { shifted.1 with info := played }.finish.2 =
      unsigned (2 ^ 32) (readBack input.formatSize input.outputLen) := by
  rw [finish_size, played_used input run playing, (bitshift_ok input run).2.2,
    shift_formatSize]

theorem hasSamples_of_runsExactly (exactly : RunsExactly input data outputBuffer) :
    HasSamples input := by
  obtain ⟨fuel, shifted, run, stored⟩ := exactly.stores
  obtain ⟨played, playing⟩ := playFile_full shifted.1.info
  obtain ⟨_, output, converted, length⟩ := exactly.writes _ _ _ _ run playing
  obtain ⟨samples, written, ended⟩ := bind_eq_ok converted
  cases ended
  rw [played_size input run playing] at written
  obtain ⟨k, words, turns⟩ := writeLoop_ok written
  rw [played_used input run playing] at length
  change (samples.length : Int) = input.outputLen at length
  obtain ⟨-, low, high⟩ := outputLen_bounds input
  have back : -2 ^ 31 ≤ readBack input.formatSize input.outputLen ∧
      readBack input.formatSize input.outputLen < 2 ^ 31 :=
    Header.int_bounds _ _
  have wrapped := dvd_unsigned_sub (2 ^ 32)
    (readBack input.formatSize input.outputLen) (by decide)
  refine ⟨?_, by omega, by omega⟩
  have one := (bitshift_ok input run).1
  by_contra fewer
  have none : input.state.info.inputDataLen / input.sampleSize = 0 :=
    Int.ediv_eq_zero_of_lt input.nonneg (not_le.mp fewer)
  omega

theorem runsExactly_of_hasSamples (has : HasSamples input) :
    RunsExactly input data outputBuffer where
  stores := bitshift_stores input has.sample
  writes := by
    intro fuel shifted reports played run playing
    obtain ⟨four, low, high⟩ := outputLen_bounds input
    have positive := has.output
    obtain ⟨k, words⟩ : ∃ k : Nat, input.outputLen = 4 * (k + 1) :=
      ⟨(input.outputLen / 4 - 1).toNat, by omega⟩
    have size := played_size input run playing
    rw [has.apart] at size
    have wrapped := dvd_unsigned_sub (2 ^ 32) input.outputLen (by decide)
    have turns : (2 : Int) ^ 32 ∣ (unsigned (2 ^ 32) input.outputLen : Int) - 4 * (k + 1) := by
      rw [← words]
      exact_mod_cast wrapped
    obtain ⟨bytes, written, length⟩ : ∃ bytes, writeLoop outputBuffer (k + 1) 0
        (unsigned (2 ^ 32) input.outputLen) = .ok bytes ∧ bytes.length = 4 * (k + 1) :=
      writeLoop_eq k turns (by omega) (Nat.lt_succ_self k) 0
    refine ⟨k + 1, _, convertData_eq ((congrArg _ size).trans written), ?_⟩
    rw [played_used input run playing, words, length]
    push_cast
    rfl

end Runs

theorem runsExactly_iff (input : Input) (data : Word) (outputBuffer : Nat → Nat) :
    RunsExactly input data outputBuffer ↔ HasSamples input :=
  ⟨hasSamples_of_runsExactly input, runsExactly_of_hasSamples input⟩

/-- A header of 44 bytes for two channels of 16 bits at 48 kHz, with a length and samples
behind it. -/
def stereo (length : Byte) (samples : List Byte) : File :=
  [0x52, 0x49, 0x46, 0x46, 0x24, 0, 0, 0, 0x57, 0x41, 0x56, 0x45,
    0x66, 0x6d, 0x74, 0x20, 0x10, 0, 0, 0, 1, 0, 2, 0,
    0x80, 0xbb, 0, 0, 0, 0xee, 2, 0, 4, 0, 0x10, 0, 0x64, 0x61, 0x74, 0x61, length, 0, 0, 0] ++
  samples

example : ∃ input : Input, HasSamples input := by
  have sizes : (headerParser (stereo 8 (List.replicate 8 0)) 2 zeroStart.state).toOption.map
      (fun state => (state.info.inputDataLen, state.info.frameBits, state.info.outputDataLen,
        state.shift.header.int 16)) = some (8, 16, 8, 16) := by
    decide +kernel
  obtain ⟨state, accepted, equal⟩ := Option.map_eq_some_iff.mp sizes
  obtain ⟨length, bits, output, size⟩ : state.info.inputDataLen = 8 ∧ state.info.frameBits = 16 ∧
      state.info.outputDataLen = 8 ∧ state.shift.header.int 16 = 16 := by
    simpa using equal
  let input : Input := ⟨_, zeroStart, 2, state, toOption_eq_some accepted, by omega,
    .inl (by omega)⟩
  have narrow : input.state.info.frameBits ≤ 16 := bits.le
  have two : input.sampleSize = 2 := if_pos narrow
  have sixteen : input.outputLen = 16 := by
    rw [Input.outputLen, if_pos narrow]
    exact congrArg (fun size : Int => asInt (size <<< (1 : Nat))) output
  refine ⟨input, ?_, by omega, ?_⟩
  · rw [two]
    exact length.ge.trans' (by decide)
  · rw [← shift_formatSize input, size, sixteen]
    decide +kernel

def noSamples : File := stereo 0 []

theorem noSamples_accepted : ∃ state, headerParser noSamples 2 zeroStart.state = .ok state ∧
    state.info.inputDataLen = 0 ∧ state.info.frameBits = 16 := by
  have sizes : (headerParser noSamples 2 zeroStart.state).toOption.map
      (fun state => (state.info.inputDataLen, state.info.frameBits)) = some (0, 16) := by
    decide +kernel
  obtain ⟨state, accepted, equal⟩ := Option.map_eq_some_iff.mp sizes
  exact ⟨state, toOption_eq_some accepted, congrArg Prod.fst equal, congrArg Prod.snd equal⟩

/-- A sample is stored of a file that has none. -/
theorem noSamples_stored : ¬ ∀ (input : Input) (data : Word) (outputBuffer : Nat → Nat),
    RunsExactly input data outputBuffer := by
  intro always
  obtain ⟨state, parsed, none, bits⟩ := noSamples_accepted
  let input : Input := ⟨noSamples, zeroStart, 2, state, parsed, none.ge, .inl (by omega)⟩
  obtain ⟨fuel, shifted, run, stored⟩ := (always input (fun _ => 0) fun _ => 0).stores
  have one := (bitshift_ok input run).1
  have empty : input.state.info.inputDataLen / input.sampleSize = 0 := by
    change state.info.inputDataLen / _ = 0
    rw [none, Int.zero_ediv]
  omega

end ImxTest.Asrc
