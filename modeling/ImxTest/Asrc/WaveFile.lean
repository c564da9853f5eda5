import ImxTest.Asrc.OutputSize
import ImxTest.Lib.LittleEndian

/-!
# The WAV file of the ASRC test

`header_parser` looks for three chunks of the input and copies their headers into the
array `header`; `bitshift` reads the samples and patches the array, `play_file` counts
what comes out of the converter, and `convert_data` patches the array once more and
writes it and the samples.

The array is a memory of its own: an index outside it reads and writes no other object,
and every access is noted.  The loops take the number of passes that they may make.
-/

set_option autoImplicit false

namespace ImxTest.Asrc

open ImxTest.Lib.LittleEndian
open OutputSize (asInt asrcGetOutputBufferSize)

abbrev Byte : Type := UInt8

abbrev File : Type := List Byte

/-- Four bytes, as `fread` leaves them. -/
abbrev Word : Type := Fin 4 → Byte

namespace Word

@[irreducible]
def toInt (word : Word) : Int :=
  signed (2 ^ 32) (leDecode (List.ofFn word))

@[irreducible]
def ofInt (value : Int) : Word :=
  fun i => ((leEncode 4 (unsigned (2 ^ 32) value))[i.val]?).getD 0

theorem toInt_bounds (word : Word) : -2 ^ 31 ≤ word.toInt ∧ word.toInt < 2 ^ 31 := by
  have below : leDecode (List.ofFn word) < 2 ^ 32 := by
    simpa using leDecode_lt (List.ofFn word)
  have bounds := signed_bounds below
  rw [Word.toInt]
  omega

end Word

/-- The program ends in `header_parser`, which returns -1, or its fuel is used up. -/
inductive Exit where
  | wrongFormat | running
  deriving DecidableEq, Repr

abbrev Run : Type → Type := Except Exit

/-! ## The stream and the chunks -/

def freadCount (file : File) (pos count : Nat) : Nat :=
  min count (file.length - pos)

/-- `fread` of four bytes; bytes that are not there keep what they were. -/
def freadWord (file : File) (pos : Nat) (old : Word) : Word :=
  fun i => (file[pos + i.val]?).getD (old i)

theorem freadWord_whole {file : File} {pos : Nat} (whole : pos + 4 ≤ file.length) (old : Word) :
    List.ofFn (freadWord file pos old) = (file.drop pos).take 4 := by
  refine List.ext_getElem (by simp; omega) fun i here there => ?_
  have below : i < 4 := by simpa using here
  have inside : pos + i < file.length := by omega
  simp only [List.getElem_ofFn, List.getElem_take, List.getElem_drop, freadWord]
  rw [List.getElem?_eq_getElem inside]
  rfl

/-- The stream with the locals of the loops. -/
structure Scan where
  pos : Nat
  chunkId : Word
  chunkSize : Word

namespace Scan

def readId (file : File) (scan : Scan) : Scan :=
  { scan with
    chunkId := freadWord file scan.pos scan.chunkId
    pos := scan.pos + freadCount file scan.pos 4 }

def readSize (file : File) (scan : Scan) : Scan :=
  { scan with
    chunkSize := freadWord file scan.pos scan.chunkSize
    pos := scan.pos + freadCount file scan.pos 4 }

/-- `fseek` with `SEEK_CUR`, which fails before the start of the file. -/
def seek (scan : Scan) (offset : Int) : Scan :=
  if scan.pos + offset < 0 then scan else { scan with pos := (scan.pos + offset).toNat }

/-- The size of the chunk is read and what it covers is skipped. -/
def skipChunk (file : File) (scan : Scan) : Scan :=
  (scan.readSize file).seek (scan.readSize file).chunkSize.toInt

end Scan

/-- The loop up to the chunk with the tag. -/
def skipTo (file : File) (tag : Word) : Nat → Scan → Run Scan
  | 0, _ => .error .running
  | fuel + 1, scan =>
      if scan.chunkId = tag then .ok scan
      else if file.length < (scan.skipChunk file).pos + 4 then .error .wrongFormat
      else skipTo file tag fuel ((scan.skipChunk file).readId file)

def riff : Word := ![0x52, 0x49, 0x46, 0x46]

def fmt : Word := ![0x66, 0x6d, 0x74, 0x20]

def dataTag : Word := ![0x64, 0x61, 0x74, 0x61]

/-! ## The array `header` -/

abbrev Header : Type := Int → Byte

def waveHeadSize : Int := 44 + 14 + 16

namespace Header

def cleared : Header := fun _ => 0

def get (header : Header) (first : Int) (count : Nat) : List Byte :=
  (List.range count).map fun i : Nat => header (first + i)

def put (header : Header) (first : Int) (bytes : List Byte) : Header :=
  fun a => if first ≤ a then (bytes[(a - first).toNat]?).getD (header a) else header a

/-- `*(int *)&header[first]`. -/
@[irreducible]
def int (header : Header) (first : Int) : Int :=
  signed (2 ^ 32) (leDecode (header.get first 4))

/-- `*(short *)&header[first]`. -/
@[irreducible]
def short (header : Header) (first : Int) : Int :=
  signed (2 ^ 16) (leDecode (header.get first 2))

section Access
variable (header : Header) {first second : Int} {bytes : List Byte}

@[simp]
theorem get_length (count : Nat) : (header.get first count).length = count := by
  simp [get]

theorem leDecode_get_lt (first : Int) : leDecode (header.get first 4) < 2 ^ 32 := by
  have below := leDecode_lt (header.get first 4)
  rwa [get_length] at below

theorem int_bounds (first : Int) : -2 ^ 31 ≤ header.int first ∧ header.int first < 2 ^ 31 := by
  have bounds := signed_bounds (header.leDecode_get_lt first)
  rw [Header.int]
  omega

theorem leDecode_get (first : Int) :
    leDecode (header.get first 4) = unsigned (2 ^ 32) (header.int first) := by
  rw [int, unsigned_signed (header.leDecode_get_lt first)]

theorem get_part {first : Int} {offset count total : Nat} (inside : offset + count ≤ total) :
    ((header.get first total).drop offset).take count = header.get (first + offset) count := by
  refine List.ext_getElem (by simp; omega) fun i here there => ?_
  have place : first + ((offset + i : Nat) : Int) = first + offset + i := by
    push_cast
    ring
  simp only [get, List.getElem_take, List.getElem_drop, List.getElem_map, List.getElem_range, place]

theorem put_inside {i : Nat} (inside : i < bytes.length) :
    header.put first bytes (first + i) = bytes[i] := by
  have offset : (first + (i : Int) - first).toNat = i := by omega
  rw [put, if_pos (by omega), offset, List.getElem?_eq_getElem inside]
  rfl

theorem put_outside {a : Int} (outside : a < first ∨ first + bytes.length ≤ a) :
    header.put first bytes a = header a := by
  unfold put
  split
  · have past : bytes.length ≤ (a - first).toNat := by omega
    rw [List.getElem?_eq_none past]
    rfl
  · rfl

/-- What is read among the bytes that are stored. -/
theorem get_put_inside (first : Int) (offset count : Nat) {bytes : List Byte}
    (inside : offset + count ≤ bytes.length) :
    (header.put first bytes).get (first + offset) count = (bytes.drop offset).take count := by
  refine List.ext_getElem (by simp; omega) fun i here there => ?_
  have below : offset + i < bytes.length := by
    rw [get_length] at here
    omega
  have place : first + (offset : Int) + i = first + ((offset + i : Nat) : Int) := by
    push_cast
    ring
  simp only [get, List.getElem_map, List.getElem_range, List.getElem_take, List.getElem_drop,
    place, put_inside header below]

theorem get_put_same : (header.put first bytes).get first bytes.length = bytes := by
  have inside := header.get_put_inside first 0 bytes.length (Nat.zero_add _).le
  simpa using inside

theorem get_put_other {count : Nat}
    (apart : second + count ≤ first ∨ first + bytes.length ≤ second) :
    (header.put first bytes).get second count = header.get second count := by
  refine List.map_congr_left fun i member => ?_
  have inside := List.mem_range.mp member
  exact put_outside header (by omega)

theorem int_put_same {value : Int} (low : -2 ^ 31 ≤ value) (high : value < 2 ^ 31) :
    (header.put first (leEncode 4 (unsigned (2 ^ 32) value))).int first = value := by
  have same : (header.put first (leEncode 4 (unsigned (2 ^ 32) value))).get first
      (leEncode 4 (unsigned (2 ^ 32) value)).length = _ := get_put_same header
  rw [leEncode_length] at same
  rw [int, same, leDecode_leEncode]
  have below := unsigned_lt (2 ^ 32) value (by decide)
  rw [Nat.mod_eq_of_lt (by omega)]
  exact signed_unsigned (2 ^ 32) value (by omega) (by omega)

theorem int_put_other (apart : second + 4 ≤ first ∨ first + bytes.length ≤ second) :
    (header.put first bytes).int second = header.int second := by
  rw [int, int, get_put_other header apart]

theorem put_congr {other : Header} {a : Int} (same : header a = other a) :
    header.put first bytes a = other.put first bytes a := by
  unfold put
  split
  · rw [same]
  · exact same

/-- What stood in the array before does not matter where a number is stored. -/
theorem int_put_put (other : Header) (four : bytes.length = 4) (more : List Byte) :
    ((header.put first bytes).put second more).int first =
      ((other.put first bytes).put second more).int first := by
  have run : ((header.put first bytes).put second more).get first 4 =
      ((other.put first bytes).put second more).get first 4 := by
    refine List.map_congr_left fun i member => put_congr _ ?_
    have inside : i < bytes.length := four ▸ List.mem_range.mp member
    rw [put_inside header inside, put_inside other inside]
  rw [int, int, run]

end Access

end Header

structure Span where
  first : Int
  count : Nat
  deriving DecidableEq, Repr

/-- `struct audio_info_s`, as far as these functions use it. -/
structure Info where
  sampleRate : Int
  channel : Int
  inputDataLen : Int
  outputDataLen : Int
  outputUsed : Int
  outputSampleRate : Int
  frameBits : Int
  blockalign : Int
  deriving DecidableEq, Repr

structure State where
  scan : Scan
  formatSize : Word
  header : Header
  info : Info
  touched : List Span

namespace State

def touch (state : State) (first : Int) (count : Nat) : State :=
  { state with touched := state.touched ++ [⟨first, count⟩] }

def seek (state : State) (offset : Int) : State :=
  { state with scan := state.scan.seek offset }

def store (state : State) (first : Int) (bytes : List Byte) : State :=
  { state.touch first bytes.length with header := state.header.put first bytes }

def storeInt (state : State) (first value : Int) : State :=
  state.store first (leEncode 4 (unsigned (2 ^ 32) value))

def storeShort (state : State) (first value : Int) : State :=
  state.store first (leEncode 2 (unsigned (2 ^ 16) value))

/-- `fread(&header[first], 1, count, src)`. -/
def freadHeader (file : File) (state : State) (first : Int) (count : Nat) : State :=
  { state.store first ((file.drop state.scan.pos).take count) with
    scan := { state.scan with pos := state.scan.pos + freadCount file state.scan.pos count } }

@[simp] theorem seek_info (state : State) (offset : Int) : (state.seek offset).info = state.info :=
  rfl

@[simp] theorem freadHeader_info (state : State) (file : File) (first : Int) (count : Nat) :
    (state.freadHeader file first count).info = state.info :=
  rfl

end State

/-! ## `header_parser` -/

/-- The "RIFF" chunk, which begins four bytes before the scan. -/
def State.takeRiff (file : File) (state : State) (scan : Scan) : State :=
  ({ state with scan := scan }.seek (-4)).freadHeader file 0 12

def findRiff (file : File) (fuel : Nat) (state : State) : Run State := do
  let scan ← skipTo file riff fuel ({ state.scan with pos := 0 }.readId file)
  return state.takeRiff file scan

/-- What `info` takes from the array. -/
def State.readFormat (state : State) : State :=
  { (((state.touch 22 2).touch 24 4).touch 32 2).touch 34 2 with
    info := { state.info with
      channel := state.header.short 22
      sampleRate := state.header.int 24
      blockalign := unsigned (2 ^ 16) (state.header.short 32)
      frameBits := unsigned (2 ^ 16) (state.header.short 34) } }

@[simp] theorem State.readFormat_info (state : State) : state.readFormat.info =
    { state.info with
      channel := state.header.short 22
      sampleRate := state.header.int 24
      blockalign := unsigned (2 ^ 16) (state.header.short 32)
      frameBits := unsigned (2 ^ 16) (state.header.short 34) } := rfl

/-- The "fmt " chunk behind its tag.  The number of bytes to read is an `int` that is taken
for a `size_t`. -/
def State.takeFormat (file : File) (state : State) (scan : Scan) : State :=
  let formatSize := freadWord file scan.pos state.formatSize
  let behind := { scan with pos := scan.pos + freadCount file scan.pos 4 }
  let count := unsigned (2 ^ 32) (asInt (formatSize.toInt + 8))
  (({ state with scan := behind, formatSize := formatSize }.seek (-8)).freadHeader file 12
    count).readFormat

def findFmt (file : File) (fuel : Nat) (state : State) : Run State := do
  let scan ← skipTo file fmt fuel (state.scan.readId file)
  return state.takeFormat file scan

def State.takeData (file : File) (state : State) (scan : Scan) : State :=
  let inputDataLen := freadWord file scan.pos (.ofInt state.info.inputDataLen)
  let behind := { scan with pos := scan.pos + freadCount file scan.pos 4 }
  let info := { state.info with inputDataLen := inputDataLen.toInt }
  ({ state with scan := behind, info := info }.seek (-8)).freadHeader file
    (asInt (state.formatSize.toInt + 20)) 8

def findData (file : File) (fuel : Nat) (state : State) : Run State := do
  let scan ← skipTo file dataTag fuel (state.scan.readId file)
  return state.takeData file scan

def outputSize (fuel : Nat) (info : Info) : Run Int :=
  match asrcGetOutputBufferSize fuel info.inputDataLen info.sampleRate info.outputSampleRate with
  | none => .error .running
  | some size => .ok size

theorem outputSize_eq_ok {fuel : Nat} {info : Info} {size : Int} :
    outputSize fuel info = .ok size ↔ asrcGetOutputBufferSize fuel info.inputDataLen
      info.sampleRate info.outputSampleRate = some size := by
  rw [outputSize]
  split
  · next out => exact iff_of_false (by intro same; cases same) (by rw [out]; intro same; cases same)
  · next other run => rw [run, Except.ok.injEq, Option.some.injEq]

def State.patch (state : State) (outputDataLen : Int) : State :=
  let f := state.formatSize.toInt
  let info := { state.info with outputDataLen := outputDataLen }
  let state := { state with info := info }.storeInt (asInt (24 + f)) outputDataLen
  let state := state.storeInt 4 (asInt (asInt (outputDataLen + 20) + f))
  let state := state.storeInt 24 info.outputSampleRate
  state.storeInt 28
    (asInt (asInt (info.outputSampleRate * info.channel) * (info.frameBits / 8)))

def headerParser (file : File) (fuel : Nat) (state : State) : Run State := do
  let state ← findRiff file fuel state
  let state ← findFmt file fuel state
  let state ← findData file fuel state
  let outputDataLen ← outputSize fuel state.info
  return state.patch outputDataLen

/-- What `main` and the stack leave for `header_parser`: locals that are not set, a
cleared array and the output rate. -/
structure Start where
  chunkId : Word
  chunkSize : Word
  formatSize : Word
  outputSampleRate : Int
  low : -2 ^ 31 ≤ outputSampleRate
  high : outputSampleRate < 2 ^ 31

def Start.state (start : Start) : State where
  scan := ⟨0, start.chunkId, start.chunkSize⟩
  formatSize := start.formatSize
  header := .cleared
  info := ⟨0, 0, 0, 0, 0, start.outputSampleRate, 0, 0⟩
  touched := []

def zeroStart : Start :=
  ⟨fun _ => 0, fun _ => 0, fun _ => 0, 48000, by decide, by decide⟩

/-! ## `bitshift` -/

def State.updateDatachunkLength (state : State) (formatSize : Int) : State :=
  let state := state.storeInt (asInt (24 + formatSize)) state.info.outputDataLen
  state.storeInt 4 (asInt (asInt (state.info.outputDataLen + 20) + formatSize))

def State.updateBlockalign (state : State) : State :=
  let state := state.storeShort 32 state.info.blockalign
  state.storeInt 28 (asInt (state.info.outputSampleRate * state.info.blockalign))

def State.updateSampleBitdepth (state : State) : State :=
  state.storeShort 34 state.info.frameBits

/-- The stream, the local `data` and `input_buffer`. -/
structure Samples where
  pos : Nat
  data : Word
  stored : List Nat

/-- A pass reads `width` bytes and stores what `shape` makes of `data`. -/
def Samples.pass (file : File) (width : Nat) (shape : Nat → Nat) (samples : Samples) : Samples :=
  let data : Word := fun i =>
    if i.val < width then (file[samples.pos + i.val]?).getD (samples.data i) else samples.data i
  ⟨samples.pos + freadCount file samples.pos width, data,
    samples.stored ++ [shape (leDecode (List.ofFn data))]⟩

/-- `do ... while (--nleft)`. -/
def sampleLoop (file : File) (width : Nat) (shape : Nat → Nat) :
    Nat → Int → Samples → Run Samples
  | 0, _, _ => .error .running
  | fuel + 1, nleft, samples =>
      if asInt (nleft - 1) ≠ 0 then
        sampleLoop file width shape fuel (asInt (nleft - 1)) (samples.pass file width shape)
      else .ok (samples.pass file width shape)

def sampleLoopOf (file : File) (fuel : Nat) (bits nleft : Int) (samples : Samples) :
    Run Samples :=
  if bits ≤ 16 then sampleLoop file 2 (fun data => data <<< 8 &&& 0xFFFF00) fuel nleft samples
  else if bits = 24 then sampleLoop file 4 id fuel nleft samples
  else if bits = 32 then
    sampleLoop file 4 (fun data => data >>> 8 &&& 0x00FFFFFF) fuel nleft samples
  else .ok samples

/-- Samples of up to sixteen bits are widened, so that the lengths are doubled. -/
def State.widen (state : State) (formatSize : Int) : State :=
  let info := { state.info with
    inputDataLen := asInt (state.info.inputDataLen <<< (1 : Nat))
    outputDataLen := asInt (state.info.outputDataLen <<< (1 : Nat)) }
  let state := { state with info := info }.updateDatachunkLength formatSize
  { state with info := { state.info with blockalign := 8 } }.updateBlockalign

def State.shift (state : State) : State :=
  let formatSize := state.header.int 16
  let noted := state.touch 16 4
  let wide := if state.info.frameBits ≤ 16 then noted.widen formatSize else noted
  { wide with info := { wide.info with frameBits := 24 } }.updateSampleBitdepth

/-- `data` is the local before it is set. -/
def bitshift (file : File) (data : Word) (fuel : Nat) (state : State) :
    Run (State × List Nat) := do
  let bits := state.info.frameBits
  let nleft := if bits ≤ 16 then state.info.inputDataLen >>> (1 : Nat)
    else state.info.inputDataLen >>> (2 : Nat)
  let samples ← sampleLoopOf file fuel bits nleft ⟨state.scan.pos, data, []⟩
  return ({ state.shift with scan := { state.scan with pos := samples.pos } }, samples.stored)

/-! ## `play_file` -/

def dmaBufSize : Int := 4096

def Info.playInput (info : Info) : Info :=
  { info with
    inputDataLen :=
      if info.inputDataLen > 0 then
        info.inputDataLen -
          (if info.inputDataLen > dmaBufSize then dmaBufSize else info.inputDataLen)
      else info.inputDataLen }

/-- What a pass counts of the output, for the length that `ASRC_CONVERT` reports.  The length
is unsigned, so that the output that is left is compared as unsigned too. -/
def Info.playOutput (info : Info) (reported : Nat) : Info :=
  if unsigned (2 ^ 32) info.outputDataLen > reported then
    { info with
      outputDataLen := asInt (info.outputDataLen - reported)
      outputUsed := asInt (info.outputUsed + reported) }
  else
    { info with
      outputDataLen := 0
      outputUsed := asInt (info.outputUsed + info.outputDataLen) }

def Info.playPass (info : Info) (reported : Nat) : Info :=
  info.playInput.playOutput reported

/-- The loop, which has no end where the reports give out. -/
def playLoop : List Nat → Info → Run Info
  | [], _ => .error .running
  | reported :: rest, info =>
      if (info.playPass reported).outputDataLen = 0 then .ok (info.playPass reported)
      else playLoop rest (info.playPass reported)

def playFile (reports : List Nat) (info : Info) : Run Info :=
  playLoop reports { info with outputUsed := 0 }

/-! ## `convert_data` -/

/-- `do ... while (size > 0)`, where `size` is unsigned. -/
def writeLoop (outputBuffer : Nat → Nat) : Nat → Nat → Nat → Run (List Byte)
  | 0, _, _ => .error .running
  | fuel + 1, i, size =>
      let bytes := leEncode 4 (outputBuffer i &&& 0x00FFFFFF)
      let size := (size + (2 ^ 32 - 4)) % 2 ^ 32
      if size > 0 then do
        let rest ← writeLoop outputBuffer fuel (i + 1) size
        return bytes ++ rest
      else .ok bytes

/-- The array after its last changes, with the size that is read from it. -/
def State.finish (state : State) : State × Nat :=
  let formatSize := state.header.int 16
  let state := state.touch 16 4
  let state := state.storeInt (asInt (24 + formatSize)) state.info.outputUsed
  let state := state.storeInt 4 (asInt (asInt (state.info.outputUsed + 20) + formatSize))
  let size := unsigned (2 ^ 32) (state.header.int (asInt (24 + formatSize)))
  let state := state.touch (asInt (24 + formatSize)) 4
  (state.touch 0 (asInt (formatSize + 28)).toNat, size)

structure Output where
  head : List Byte
  samples : List Byte

def convertData (outputBuffer : Nat → Nat) (fuel : Nat) (state : State) : Run Output := do
  let count := (asInt (state.header.int 16 + 28)).toNat
  let samples ← writeLoop outputBuffer fuel 0 state.finish.2
  return ⟨state.finish.1.header.get 0 count, samples⟩

end ImxTest.Asrc
