import ImxTest.Asrc.WavLayout
import ImxTest.Asrc.ParserEnds

/-!
# The header of the converted file

What `convert_data` writes in front of the samples, for a WAV file of 16-bit PCM samples.
`bitshift` sets the block alignment to that of two channels.
-/

set_option autoImplicit false

namespace ImxTest.Asrc

open ImxTest.Lib.Exits (bind_eq_ok)
open ImxTest.Lib.Fuel ImxTest.Lib.LittleEndian
open OutputSize

/-! ## Where the loops over the chunks lead -/

/-- The loop comes from a place in the file to a chunk with the tag. -/
def WalksTo (file : File) (tag : Word) (start found : Scan) : Prop :=
  found.chunkId = tag ∧
    ∃ passes, after (skipStep file tag) passes (start.readId file) = some found

theorem skipTo_of_after {file : File} {tag : Word} {passes : Nat} {scan found : Scan}
    (tagged : found.chunkId = tag)
    (reached : after (skipStep file tag) passes scan = some found) :
    skipTo file tag (passes + 1) scan = .ok found := by
  induction passes generalizing scan with
  | zero =>
      cases reached
      exact if_pos tagged
  | succ passes ih =>
      obtain ⟨next, pass, rest⟩ := Option.bind_eq_some_iff.mp reached
      rw [skipStep] at pass
      rw [skipTo]
      split at pass
      · cases pass
      · next other =>
          split at pass
          · cases pass
          · next inside =>
              cases pass
              rw [if_neg other, if_neg inside]
              exact ih rest

theorem after_of_skipTo {file : File} {tag : Word} {fuel : Nat} {scan found : Scan}
    (run : skipTo file tag fuel scan = .ok found) :
    ∃ passes, after (skipStep file tag) passes scan = some found := by
  induction fuel generalizing scan with
  | zero => cases run
  | succ fuel ih =>
      rw [skipTo] at run
      split at run
      · cases run
        exact ⟨0, rfl⟩
      · next other =>
          split at run
          · cases run
          · next inside =>
              obtain ⟨passes, reached⟩ := ih run
              refine ⟨passes + 1, ?_⟩
              rw [after, skipStep, if_neg other, if_neg inside]
              exact reached

theorem walksTo_iff {file : File} {tag : Word} {start found : Scan} :
    WalksTo file tag start found ↔ ∃ fuel, skipTo file tag fuel (start.readId file) = .ok found := by
  constructor
  · rintro ⟨tagged, passes, reached⟩
    exact ⟨passes + 1, skipTo_of_after tagged reached⟩
  · rintro ⟨fuel, run⟩
    exact ⟨(skipTo_ok run).1, after_of_skipTo run⟩

theorem seek_kept (scan : Scan) (offset : Int) :
    scan.seek offset = ⟨(scan.seek offset).pos, scan.chunkId, scan.chunkSize⟩ := by
  rw [Scan.seek]
  split
  · rfl
  · rfl

theorem takeFormat_scan (file : File) (state : State) (scan : Scan) :
    (state.takeFormat file scan).scan =
      ⟨(state.takeFormat file scan).scan.pos, scan.chunkId, scan.chunkSize⟩ := by
  have kept := seek_kept { scan with pos := scan.pos + freadCount file scan.pos 4 } (-8)
  have tag := congrArg Scan.chunkId kept
  have size := congrArg Scan.chunkSize kept
  exact congrArg₂ (Scan.mk (state.takeFormat file scan).scan.pos) tag size

/-- The sizes of the chunks lead to the "fmt " chunk of the file and from it to the "data"
chunk, and not past them. -/
def Wav.Found (wav : Wav) (start : Start) : Prop :=
  ∃ fmtSize dataSize,
    WalksTo wav.bytes fmt ⟨12, riff, start.chunkSize⟩ ⟨wav.fmtPos, fmt, fmtSize⟩ ∧
      WalksTo wav.bytes dataTag ⟨wav.fmtPos + 20, fmt, fmtSize⟩ ⟨wav.dataPos, dataTag, dataSize⟩

/-- Without a padding byte they do. -/
theorem Wav.found_of_plain {wav : Wav} (before : ∀ chunk ∈ wav.before, chunk.Plain)
    (between : ∀ chunk ∈ wav.between, chunk.Plain) (start : Start) : wav.Found start := by
  obtain ⟨fmtSize, fmtRun⟩ :=
    @Wav.fmt_found wav before ⟨12, riff, start.chunkSize⟩ rfl
  obtain ⟨dataSize, dataRun⟩ :=
    @Wav.data_found wav between ⟨wav.fmtPos + 20, fmt, fmtSize⟩ rfl
  exact ⟨fmtSize, dataSize, walksTo_iff.mpr ⟨_, fmtRun⟩, walksTo_iff.mpr ⟨_, dataRun⟩⟩

/-! ## Accepted runs on the file -/

/-- The run takes the format and the samples from the chunks of the file. -/
structure Accepted.Takes (run : Accepted) (wav : Wav) : Prop where
  file : run.file = wav.bytes
  format : run.fmtScan.pos = wav.fmtPos
  data : run.dataScan.pos = wav.dataPos

section Accepted
variable {wav : Wav} {run : Accepted} (takes : run.Takes wav)
include takes

theorem riffScan_eq : run.riffScan = ⟨4, riff, run.start.chunkSize⟩ := by
  have found := run.foundRiff
  rw [takes.file] at found
  exact (skipTo_steady _ _ _).ok_unique found (wav.riff_found run.start 0)

theorem found_of_takes : wav.Found run.start := by
  have fmtFound := run.foundFmt
  have dataFound := run.foundData
  have fmtTag := run.fmt_stands.1
  have dataTagged := (skipTo_ok dataFound).1
  have fmtScan : run.fmtScan = ⟨wav.fmtPos, fmt, run.fmtScan.chunkSize⟩ := by
    rw [← fmtTag, ← takes.format]
  have dataScan : run.dataScan = ⟨wav.dataPos, dataTag, run.dataScan.chunkSize⟩ := by
    rw [← dataTagged, ← takes.data]
  have riffBehind : (run.start.state.takeRiff run.file run.riffScan).scan =
      ⟨12, riff, run.start.chunkSize⟩ := by
    have pos := wav.takeRiff_pos run.start.state run.start.chunkSize
    rw [takes.file, riffScan_eq takes, ← pos]
    rfl
  have fmtBehind : ((run.start.state.takeRiff run.file run.riffScan).takeFormat run.file
      run.fmtScan).scan = ⟨wav.fmtPos + 20, fmt, run.fmtScan.chunkSize⟩ := by
    have pos := wav.takeFormat_pos (run.start.state.takeRiff wav.bytes run.riffScan) takes.format
    rw [takes.file, takeFormat_scan, pos, fmtTag]
  rw [riffBehind, takes.file, fmtScan] at fmtFound
  rw [fmtBehind, takes.file, dataScan] at dataFound
  exact ⟨run.fmtScan.chunkSize, run.dataScan.chunkSize, walksTo_iff.mpr ⟨_, fmtFound⟩,
    walksTo_iff.mpr ⟨_, dataFound⟩⟩

theorem formatSize_eq : run.formatSize = 16 := by
  rw [Accepted.formatSize, takes.file]
  change (freadWord wav.bytes run.fmtScan.pos run.start.state.formatSize).toInt = 16
  rw [wav.format_word _ takes.format]
  exact Word.toInt_ofInt (by decide) (by decide)

theorem sizeApart : run.SizeApart := by
  have whole := inside_of_drop (wav.drop_format.trans (List.append_assoc _ _ _))
  refine ⟨?_, .inr (by rw [formatSize_eq takes]; decide)⟩
  rwa [takes.file, takes.format]

theorem frameBits_eq : run.state.info.frameBits = 16 := by
  have bits := wav.takeFormat_bits (run.start.state.takeRiff run.file run.riffScan) takes.format
  rw [← takes.file] at bits
  exact bits

theorem inputDataLen_eq :
    run.state.info.inputDataLen = wav.dataLen := by
  have length := wav.takeData_length run.formatState takes.data
  rw [← takes.file] at length
  exact length

theorem sized_eq : asrcGetOutputBufferSize run.fuel wav.dataLen wav.sampleRate.toInt
    run.start.outputSampleRate = some run.outputDataLen := by
  have rate := wav.takeFormat_rate (run.start.state.takeRiff run.file run.riffScan) takes.format
  rw [← takes.file] at rate
  have sized := outputSize_eq_ok.mp run.sized
  rw [← inputDataLen_eq takes, ← rate]
  exact sized

end Accepted

theorem exists_accepted {wav : Wav} {start : Start} (found : wav.Found start) {passes : Nat}
    {size : Int} (sized : asrcGetOutputBufferSize passes wav.dataLen wav.sampleRate.toInt
      start.outputSampleRate = some size) :
    ∃ run : Accepted, run.Takes wav ∧ run.start = start ∧ run.outputDataLen = size := by
  obtain ⟨fmtSize, dataSize, fmtWalk, dataWalk⟩ := found
  obtain ⟨fmtFuel, fmtFound⟩ := walksTo_iff.mp fmtWalk
  obtain ⟨dataFuel, dataFound⟩ := walksTo_iff.mp dataWalk
  let fuel := passes + fmtFuel + dataFuel + 1
  let riffState := start.state.takeRiff wav.bytes ⟨4, riff, start.chunkSize⟩
  let fmtState := riffState.takeFormat wav.bytes ⟨wav.fmtPos, fmt, fmtSize⟩
  have riffBehind : riffState.scan = ⟨12, riff, start.chunkSize⟩ :=
    congrArg (fun pos => Scan.mk pos riff start.chunkSize)
      (wav.takeRiff_pos start.state start.chunkSize)
  have fmtBehind : fmtState.scan = ⟨wav.fmtPos + 20, fmt, fmtSize⟩ :=
    (takeFormat_scan _ _ _).trans (congrArg (fun pos => Scan.mk pos fmt fmtSize)
      (wav.takeFormat_pos riffState rfl))
  rw [← riffBehind] at fmtFound
  rw [← fmtBehind] at dataFound
  have rate : fmtState.info.sampleRate = wav.sampleRate.toInt := wav.takeFormat_rate _ rfl
  have length : (fmtState.takeData wav.bytes ⟨wav.dataPos, dataTag, dataSize⟩).info.inputDataLen =
      wav.dataLen := wav.takeData_length fmtState rfl
  have counted : outputSize fuel (fmtState.takeData wav.bytes
      ⟨wav.dataPos, dataTag, dataSize⟩).info = .ok size := by
    rw [outputSize_eq_ok, length]
    change asrcGetOutputBufferSize fuel _ fmtState.info.sampleRate start.outputSampleRate = _
    rw [rate]
    exact asrcGetOutputBufferSize_more (by omega) sized
  exact ⟨⟨wav.bytes, start, fuel, ⟨4, riff, start.chunkSize⟩, ⟨wav.fmtPos, fmt, fmtSize⟩,
    ⟨wav.dataPos, dataTag, dataSize⟩, size, wav.riff_found start _,
    (skipTo_steady _ _ _).ok_more (by omega) fmtFound,
    (skipTo_steady _ _ _).ok_more (by omega) dataFound, counted⟩, ⟨rfl, rfl, rfl⟩, rfl, rfl⟩

/-! ## The fields of the file -/

theorem unsigned_asInt (value : Int) :
    unsigned (2 ^ 32) (asInt value) = unsigned (2 ^ 32) value :=
  congrArg Int.toNat Int.bmod_emod

theorem unsigned_riffSize {size : Int} (room : unsigned (2 ^ 32) size + 36 < 2 ^ 32) :
    unsigned (2 ^ 32) (asInt (asInt (size + 20) + 16)) = unsigned (2 ^ 32) size + 20 + 16 := by
  have here := dvd_unsigned_sub (2 ^ 32) (asInt (asInt (size + 20) + 16)) (by decide)
  have below := unsigned_lt (2 ^ 32) (asInt (asInt (size + 20) + 16)) (by decide)
  have there := dvd_unsigned_sub (2 ^ 32) size (by decide)
  have small := unsigned_lt (2 ^ 32) size (by decide)
  have inner := dvd_asInt_sub (size + 20)
  have outer := dvd_asInt_sub (asInt (size + 20) + 16)
  omega

def Output.field (output : Output) (first count : Nat) : Nat :=
  leDecode ((output.head.drop first).take count)

/-- The header says what follows it.  A byte rate is taken to 32 bits. -/
structure HeaderDescribes (output : Output) (channels : Nat) (rate : Int) : Prop where
  blockAlign : output.field 32 2 = 4 * channels
  byteRate : output.field 28 4 = unsigned (2 ^ 32) (rate * output.field 32 2)
  dataSize : output.field 40 4 = output.samples.length
  riffSize : output.field 4 4 = output.field 40 4 + 20 + output.field 16 4

section Fields
variable {state : State} {info : Info}

/-- The array behind `bitshift`, for samples that are widened. -/
theorem shift_header (narrow : state.info.frameBits ≤ 16) (sixteen : state.header.int 16 = 16) :
    state.shift.header = ((((state.header.put 40 (leEncode 4 (unsigned (2 ^ 32)
      (asInt (state.info.outputDataLen <<< (1 : Nat)))))).put 4 (leEncode 4 (unsigned (2 ^ 32)
        (asInt (asInt (asInt (state.info.outputDataLen <<< (1 : Nat)) + 20) + 16))))).put 32
      (leEncode 2 (unsigned (2 ^ 16) 8))).put 28 (leEncode 4 (unsigned (2 ^ 32)
        (asInt (state.info.outputSampleRate * 8))))).put 34
      (leEncode 2 (unsigned (2 ^ 16) 24)) := by
  unfold State.shift
  simp only [if_pos narrow, sixteen]
  rfl

theorem finish_header (sixteen : state.header.int 16 = 16) :
    state.finish.1.header = (state.header.put 40 (leEncode 4 (unsigned (2 ^ 32)
      state.info.outputUsed))).put 4 (leEncode 4 (unsigned (2 ^ 32)
        (asInt (asInt (state.info.outputUsed + 20) + 16)))) := by
  unfold State.finish
  simp only [sixteen]
  rfl

/-- The fields that are read back from the array, which is patched by `bitshift` and then by
`convert_data`. -/
theorem patched_fields (header : Header) {a b c d e x y : List Byte} (two : c.length = 2)
    (rate : d.length = 4) (size : x.length = 4) (riff : y.length = 4) :
    let patched := ((((((header.put 40 a).put 4 b).put 32 c).put 28 d).put 34 e).put 40 x).put 4 y
    patched.get 32 2 = c ∧ patched.get 28 4 = d ∧ patched.get 40 4 = x ∧ patched.get 4 4 = y := by
  intro patched
  refine ⟨?_, ?_, ?_, ?_⟩
  · rw [Header.get_put_other _ (by omega), Header.get_put_other _ (by omega),
      Header.get_put_other _ (by omega), Header.get_put_other _ (by omega), ← two]
    exact Header.get_put_same _
  · rw [Header.get_put_other _ (by omega), Header.get_put_other _ (by omega),
      Header.get_put_other _ (by omega), ← rate]
    exact Header.get_put_same _
  · rw [Header.get_put_other _ (by omega), ← size]
    exact Header.get_put_same _
  · rw [← riff]
    exact Header.get_put_same _

end Fields

section Runs
variable {wav : Wav} {run : Accepted} (takes : run.Takes wav)
include takes

theorem header_sixteen : run.state.header.int 16 = 16 := by
  have size := formatSize_eq takes
  rw [run.header_size (sizeApart takes) (by omega) (by omega), size]

theorem shift_sixteen : run.state.shift.header.int 16 = 16 := by
  have size := formatSize_eq takes
  rw [run.shift_size (sizeApart takes) (by omega) (by omega), size]

theorem output_fields {data : Word} {fuel : Nat} {shifted : State × List Nat} {played : Info}
    {outputBuffer : Nat → Nat} {writeFuel : Nat} {output : Output}
    (shiftRun : bitshift run.file data fuel run.state = .ok shifted)
    (converted : convertData outputBuffer writeFuel { shifted.1 with info := played } =
      .ok output) :
    output.field 32 2 = 8 ∧
      output.field 28 4 = unsigned (2 ^ 32) (asInt (run.start.outputSampleRate * 8)) ∧
      output.field 40 4 = unsigned (2 ^ 32) played.outputUsed ∧
      output.field 4 4 = unsigned (2 ^ 32) (asInt (asInt (played.outputUsed + 20) + 16)) ∧
      output.field 16 4 = 16 := by
  obtain ⟨pos, state⟩ := bitshift_state shiftRun
  rw [state] at converted
  obtain ⟨samples, -, ended⟩ := bind_eq_ok converted
  cases ended
  have sixteen := shift_sixteen takes
  have narrow : run.state.info.frameBits ≤ 16 := (frameBits_eq takes).le
  let final : State := { run.state.shift with info := played }
  have part {offset count : Nat} (inside : offset + count ≤ 44) :
      ((final.finish.1.header.get 0 (asInt (run.state.shift.header.int 16 + 28)).toNat).drop
        offset).take count = final.finish.1.header.get (0 + offset) count := by
    rw [sixteen]
    exact Header.get_part _ inside
  have written := finish_header (show final.header.int 16 = 16 from sixteen)
  have kept : final.finish.1.header.int 16 = 16 := by
    rw [written, Header.int_put_other _ (.inr (by rw [leEncode_length]; decide)),
      Header.int_put_other _ (.inl (by decide))]
    exact sixteen
  rw [show final.header = run.state.shift.header from rfl,
    shift_header narrow (header_sixteen takes)] at written
  obtain ⟨align, rate, size, riff⟩ := patched_fields run.state.header
    (leEncode_length 2 _) (leEncode_length 4 _) (leEncode_length 4 _) (leEncode_length 4 _)
  have number (value : Int) :
      leDecode (leEncode 4 (unsigned (2 ^ 32) value)) = unsigned (2 ^ 32) value :=
    (leDecode_leEncode 4 _).trans (Nat.mod_eq_of_lt (unsigned_lt _ _ (by decide)))
  refine ⟨?_, ?_, ?_, ?_, ?_⟩
  · exact (congrArg leDecode ((part (by decide)).trans (written ▸ align))).trans (by decide)
  · exact (congrArg leDecode ((part (by decide)).trans (written ▸ rate))).trans (number _)
  · exact (congrArg leDecode ((part (by decide)).trans (written ▸ size))).trans (number _)
  · exact (congrArg leDecode ((part (by decide)).trans (written ▸ riff))).trans (number _)
  · refine (congrArg leDecode (part (by decide))).trans ?_
    rw [show (0 : Int) + (16 : Nat) = 16 from rfl, Header.leDecode_get, kept]
    decide

/-- For two channels the header describes an output whose size leaves room for the header. -/
theorem headerDescribes_two {data : Word} {fuel : Nat} {shifted : State × List Nat}
    {played : Info} {outputBuffer : Nat → Nat} {writeFuel : Nat} {output : Output}
    (shiftRun : bitshift run.file data fuel run.state = .ok shifted)
    (converted : convertData outputBuffer writeFuel { shifted.1 with info := played } =
      .ok output)
    (room : unsigned (2 ^ 32) played.outputUsed + 36 < 2 ^ 32)
    (length : output.samples.length = unsigned (2 ^ 32) played.outputUsed) :
    HeaderDescribes output 2 run.start.outputSampleRate := by
  obtain ⟨align, rate, size, riff, sixteen⟩ := output_fields takes shiftRun converted
  refine ⟨align, ?_, size.trans length.symm, ?_⟩
  · rw [rate, align, unsigned_asInt]
    rfl
  · rw [riff, size, sixteen]
    exact unsigned_riffSize room

end Runs

/-! ## The conversion -/

/-- The bytes that `bitshift` allocates for the samples that it stores; a `size_t` has 32
bits. -/
def inputRoom (info : Info) : Nat :=
  unsigned (2 ^ 32) (4 * (if info.frameBits ≤ 16 then info.inputDataLen >>> (1 : Nat)
    else info.inputDataLen >>> (2 : Nat)) + 4096)

def outputRoom (info : Info) : Nat :=
  unsigned (2 ^ 32) (info.outputDataLen + 256 * 1024)

/-- The file is converted, from its own chunks and within the memory that is allocated, and
the header describes the output, whatever `ASRC_CONVERT` fills in and reports. -/
def Describes (wav : Wav) (start : Start) : Prop :=
  ∃ run : Accepted, run.Takes wav ∧ run.start = start ∧
    ∀ data, ∃ fuel shifted, bitshift run.file data fuel run.state = .ok shifted ∧
      4 * shifted.2.length ≤ inputRoom run.state.info ∧
      ∀ reports played outputBuffer, playFile reports shifted.1.info = .ok played →
        ∃ fuel output,
          convertData outputBuffer fuel { shifted.1 with info := played } = .ok output ∧
            output.samples.length ≤ outputRoom shifted.1.info ∧
            HeaderDescribes output wav.channels start.outputSampleRate

/-- The length of the output as a `size_t`: that of the samples, doubled. -/
def doubled (size : Int) : Nat := unsigned (2 ^ 32) (size <<< (1 : Nat))

/-- Two channels, chunks that are found, a sample at least and no more than can be allocated,
and as much of the output. -/
structure Convertible (wav : Wav) (start : Start) : Prop where
  stereo : wav.channels = 2
  found : wav.Found start
  sample : 2 ≤ wav.dataLen
  inputFits : wav.dataLen < 2 ^ 31 - 2048
  output : ∃ passes size, asrcGetOutputBufferSize passes wav.dataLen wav.sampleRate.toInt
    start.outputSampleRate = some size ∧ 0 < doubled size ∧ doubled size + 256 * 1024 < 2 ^ 32

section Conversion
variable {wav : Wav} {start : Start}

/-- The samples of a run that keeps to its memory are counted. -/
theorem samples_of_room {file : File} {data : Word} {fuel : Nat} {state : State}
    {shifted : State × List Nat} (narrow : state.info.frameBits ≤ 16)
    (high : state.info.inputDataLen < 2 ^ 31) (low : -2 ^ 31 ≤ state.info.inputDataLen)
    (run : bitshift file data fuel state = .ok shifted)
    (room : 4 * shifted.2.length ≤ inputRoom state.info) :
    2 ≤ state.info.inputDataLen ∧ state.info.inputDataLen < 2 ^ 31 - 2048 := by
  obtain ⟨samples, sampled, ended⟩ := bind_eq_ok run
  cases ended
  rw [sampleLoopOf, if_pos narrow, if_pos narrow] at sampled
  obtain ⟨k, rfl, turns⟩ := sampleLoop_ok sampled
  rw [inputRoom, if_pos narrow, stored_length, List.length_nil] at room
  rw [Int.shiftRight_eq_div_pow] at turns room
  have below := unsigned_lt (2 ^ 32) (4 * (state.info.inputDataLen / (2 ^ 1 : Nat)) + 4096)
    (by decide)
  have wrapped := dvd_unsigned_sub (2 ^ 32)
    (4 * (state.info.inputDataLen / (2 ^ 1 : Nat)) + 4096) (by decide)
  push_cast at turns room wrapped below
  omega

/-- A run on the file, as the input of the sample loops. -/
def Accepted.input (run : Accepted) (nonneg : 0 ≤ run.state.info.inputDataLen)
    (narrow : run.state.info.frameBits ≤ 16) : Input :=
  ⟨run.file, run.start, run.fuel, run.state, run.parsed, nonneg, .inl narrow⟩

section Sizes
variable {run : Accepted} (takes : run.Takes wav)
  (nonneg : 0 ≤ run.state.info.inputDataLen) (narrow : run.state.info.frameBits ≤ 16)

theorem outputLen_eq :
    (run.input nonneg narrow).outputLen = asInt (run.outputDataLen <<< (1 : Nat)) :=
  if_pos narrow

theorem unsigned_outputLen :
    unsigned (2 ^ 32) (run.input nonneg narrow).outputLen = doubled run.outputDataLen := by
  rw [outputLen_eq, unsigned_asInt, doubled]

include takes nonneg narrow in
theorem size_eq {data : Word} {fuel : Nat} {shifted : State × List Nat} {reports : List Nat}
    {played : Info} (shiftRun : bitshift run.file data fuel run.state = .ok shifted)
    (playRun : playFile reports shifted.1.info = .ok played) :
    { shifted.1 with info := played }.finish.2 = doubled run.outputDataLen := by
  obtain ⟨-, low, high⟩ := outputLen_bounds (run.input nonneg narrow)
  have sixteen : (run.input nonneg narrow).formatSize = 16 :=
    (shift_formatSize (run.input nonneg narrow)).symm.trans (shift_sixteen takes)
  rw [played_size (run.input nonneg narrow) shiftRun playRun, sixteen,
    readBack_eq low high (.inr (by decide)), unsigned_outputLen]

include nonneg narrow in
theorem outputRoom_eq {data : Word} {fuel : Nat} {shifted : State × List Nat}
    (shiftRun : bitshift run.file data fuel run.state = .ok shifted) :
    outputRoom shifted.1.info = (doubled run.outputDataLen + 256 * 1024) % 2 ^ 32 := by
  have wrapped := dvd_unsigned_sub (2 ^ 32) (run.input nonneg narrow).outputLen (by decide)
  have room := dvd_unsigned_sub (2 ^ 32) ((run.input nonneg narrow).outputLen + 256 * 1024)
    (by decide)
  have below := unsigned_lt (2 ^ 32) ((run.input nonneg narrow).outputLen + 256 * 1024)
    (by decide)
  rw [unsigned_outputLen] at wrapped
  rw [outputRoom, (bitshift_ok (run.input nonneg narrow) shiftRun).2.1,
    shift_outputLen (run.input nonneg narrow)]
  omega

end Sizes

theorem convertible_of_describes (describes : Describes wav start) : Convertible wav start := by
  obtain ⟨run, takes, rfl, convert⟩ := describes
  obtain ⟨shiftFuel, shifted, shiftRun, inputFits, convert⟩ := convert fun _ => 0
  obtain ⟨played, playRun⟩ := playFile_full shifted.1.info
  obtain ⟨writeFuel, output, converted, outputFits, describes⟩ :=
    convert _ played (fun _ => 0) playRun
  have narrow : run.state.info.frameBits ≤ 16 := (frameBits_eq takes).le
  obtain ⟨low, high⟩ := headerParser_inputDataLen run.parsed
  obtain ⟨sample, fits⟩ := samples_of_room narrow high low shiftRun inputFits
  have nonneg : 0 ≤ run.state.info.inputDataLen := by omega
  obtain ⟨align, -⟩ := output_fields takes shiftRun converted
  rw [inputDataLen_eq takes] at sample fits
  refine ⟨?_, found_of_takes takes, sample, fits, run.fuel, run.outputDataLen, sized_eq takes, ?_⟩
  · have eight := describes.blockAlign
    omega
  · obtain ⟨samples, written, ended⟩ := bind_eq_ok converted
    cases ended
    rw [size_eq takes nonneg narrow shiftRun playRun] at written
    rw [outputRoom_eq nonneg narrow shiftRun] at outputFits
    change samples.length ≤ _ at outputFits
    obtain ⟨k, words, turns⟩ := writeLoop_ok written
    have below := unsigned_lt (2 ^ 32) (run.outputDataLen <<< (1 : Nat)) (by decide)
    change doubled run.outputDataLen < _ at below
    omega

theorem describes_of_convertible (convertible : Convertible wav start) : Describes wav start := by
  obtain ⟨stereo, found, sample, inputFits, passes, size, sized, positive, outputFits⟩ :=
    convertible
  obtain ⟨run, takes, rfl, rfl⟩ := exists_accepted found sized
  have narrow : run.state.info.frameBits ≤ 16 := (frameBits_eq takes).le
  rw [← inputDataLen_eq takes] at sample inputFits
  have nonneg : 0 ≤ run.state.info.inputDataLen := by omega
  let input := run.input nonneg narrow
  have two : input.sampleSize = 2 := if_pos narrow
  refine ⟨run, takes, rfl, fun data => ?_⟩
  obtain ⟨fuel, shifted, shiftRun, stored⟩ := @bitshift_stores input data (two ▸ sample)
  refine ⟨fuel, shifted, shiftRun, ?_, fun reports played outputBuffer playRun => ?_⟩
  · rw [two] at stored
    change (shifted.2.length : Int) = run.state.info.inputDataLen / 2 at stored
    have wrapped := dvd_unsigned_sub (2 ^ 32) (4 * (run.state.info.inputDataLen / 2) + 4096)
      (by decide)
    rw [inputRoom, if_pos narrow, Int.shiftRight_eq_div_pow]
    change _ ≤ unsigned (2 ^ 32) (4 * (run.state.info.inputDataLen / 2) + 4096)
    omega
  · have counter := size_eq takes nonneg narrow shiftRun playRun
    have whole := (outputLen_bounds input).1
    have wrapped := dvd_unsigned_sub (2 ^ 32) input.outputLen (by decide)
    rw [unsigned_outputLen] at wrapped
    obtain ⟨k, words⟩ : ∃ k, doubled run.outputDataLen = 4 * (k + 1) :=
      ⟨doubled run.outputDataLen / 4 - 1, by omega⟩
    obtain ⟨bytes, written, length⟩ : ∃ bytes, writeLoop outputBuffer (k + 1) 0
        (doubled run.outputDataLen) = .ok bytes ∧ bytes.length = 4 * (k + 1) :=
      writeLoop_eq k (by omega) (by omega) (Nat.lt_succ_self k) 0
    rw [← counter] at written
    have converted := convertData_eq written
    have used : unsigned (2 ^ 32) played.outputUsed = doubled run.outputDataLen := by
      rw [played_used input shiftRun playRun, unsigned_outputLen]
    refine ⟨k + 1, _, converted, ?_, ?_⟩
    · rw [outputRoom_eq nonneg narrow shiftRun, Nat.mod_eq_of_lt outputFits]
      change bytes.length ≤ _
      omega
    · rw [stereo]
      exact headerDescribes_two takes shiftRun converted (by omega)
        (length.trans (words.symm.trans used.symm))

end Conversion

def mono : Wav where
  riffSize := .ofInt 44
  before := []
  channels := 1
  sampleRate := .ofInt 48000
  byteRate := .ofInt 96000
  blockAlign := 2
  between := []
  samples := List.replicate 8 0
  rest := []
  notFmt := by simp
  notData := by simp
  someChannel := le_rfl
  fewChannels := by decide
  someSample := by decide
  fewSamples := by decide

/-- Two channels, with a chunk of one byte and its padding byte before the "data" chunk. -/
def padded : Wav :=
  { mono with
    channels := 2
    between := [⟨![0x4c, 0x49, 0x53, 0x54], [7], by decide⟩]
    notData := by decide
    someChannel := by decide
    fewChannels := by decide }

/-- The byte is taken for the first of the next tag, so that no "data" chunk is found. -/
example : (headerParser padded.bytes 3 zeroStart.state).toOption.isNone = true := by
  decide +kernel

end ImxTest.Asrc
