import ImxTest.Asrc.HeaderBounds

/-!
# What a WAV file holds

A WAV file of 16-bit PCM samples, in which other chunks may stand before the "fmt " and the
"data" chunk, and the places where `header_parser` finds these.
-/

set_option autoImplicit false

namespace ImxTest.Asrc

open ImxTest.Lib.LittleEndian
open OutputSize

/-! ## The layout -/

abbrev Word.bytes (word : Word) : List Byte :=
  List.ofFn word

theorem Word.bytes_ofInt (value : Int) :
    (Word.ofInt value).bytes = leEncode 4 (unsigned (2 ^ 32) value) := by
  refine List.ext_getElem (by rw [List.length_ofFn, leEncode_length]) fun i here there => ?_
  rw [List.getElem_ofFn, Word.ofInt, List.getElem?_eq_getElem there]
  rfl

theorem Word.toInt_ofInt {value : Int} (low : -2 ^ 31 ≤ value) (high : value < 2 ^ 31) :
    (Word.ofInt value).toInt = value := by
  have below := unsigned_lt (2 ^ 32) value (by decide)
  rw [Word.toInt, ← Word.bytes, Word.bytes_ofInt, leDecode_leEncode, Nat.mod_eq_of_lt (by omega)]
  exact signed_unsigned (2 ^ 32) value (by omega) (by omega)

/-- A chunk that the program has no use for. -/
structure Chunk where
  id : Word
  content : List Byte
  small : content.length < 2 ^ 32

/-- A content of odd length is followed by a byte that its size does not count. -/
def Chunk.padding (chunk : Chunk) : List Byte :=
  List.replicate (chunk.content.length % 2) 0

def Chunk.bytes (chunk : Chunk) : List Byte :=
  chunk.id.bytes ++
    ((Word.ofInt chunk.content.length).bytes ++ (chunk.content ++ chunk.padding))

/-- The size is that of the chunk, and not negative as an `int`. -/
structure Chunk.Plain (chunk : Chunk) : Prop where
  even : chunk.content.length % 2 = 0
  small : chunk.content.length < 2 ^ 31

theorem Chunk.Plain.bytes {chunk : Chunk} (plain : chunk.Plain) :
    chunk.bytes = chunk.id.bytes ++
      ((Word.ofInt chunk.content.length).bytes ++ chunk.content) := by
  rw [Chunk.bytes, Chunk.padding, plain.even, List.replicate_zero, List.append_nil]

structure Wav where
  riffSize : Word
  before : List Chunk
  channels : Nat
  sampleRate : Word
  byteRate : Word
  blockAlign : Nat
  between : List Chunk
  samples : List Byte
  rest : List Byte
  notFmt : ∀ chunk ∈ before, chunk.id ≠ fmt
  notData : ∀ chunk ∈ between, chunk.id ≠ dataTag
  someChannel : 1 ≤ channels
  fewChannels : channels < 2 ^ 16
  someSample : samples ≠ []
  fewSamples : samples.length < 2 ^ 32

def wave : Word := ![0x57, 0x41, 0x56, 0x45]

namespace Wav

def format (wav : Wav) : List Byte :=
  (Word.ofInt 16).bytes ++ (leEncode 2 1 ++ (leEncode 2 wav.channels ++ (wav.sampleRate.bytes ++
    (wav.byteRate.bytes ++ (leEncode 2 wav.blockAlign ++ leEncode 2 16)))))

/-- The length of the samples, as the `int` that the parser reads. -/
def dataLen (wav : Wav) : Int :=
  (Word.ofInt wav.samples.length).toInt

def data (wav : Wav) : List Byte :=
  (Word.ofInt wav.samples.length).bytes ++ (wav.samples ++ wav.rest)

def bytes (wav : Wav) : File :=
  riff.bytes ++ (wav.riffSize.bytes ++ (wave.bytes ++ (wav.before.flatMap Chunk.bytes ++
    (fmt.bytes ++ (wav.format ++ (wav.between.flatMap Chunk.bytes ++
      (dataTag.bytes ++ wav.data)))))))

end Wav

/-! ## The loops over the chunks -/

section Scans
variable {file : File} {scan : Scan}

theorem inside_of_drop {pos : Nat} {word : Word} {rest : List Byte}
    (stored : file.drop pos = word.bytes ++ rest) : pos + 4 ≤ file.length := by
  have length := congrArg List.length stored
  rw [List.length_drop, List.length_append, List.length_ofFn] at length
  omega

theorem drop_past {pos : Nat} {front rest : List Byte}
    (stored : file.drop pos = front ++ rest) : file.drop (pos + front.length) = rest := by
  rw [← List.drop_drop, stored, List.drop_left]

theorem drop_word {pos : Nat} {word : Word} {rest : List Byte}
    (stored : file.drop pos = word.bytes ++ rest) : file.drop (pos + 4) = rest := by
  have past := drop_past stored
  rwa [List.length_ofFn] at past

theorem freadWord_eq {pos : Nat} {word : Word} {rest : List Byte}
    (stored : file.drop pos = word.bytes ++ rest) (old : Word) : freadWord file pos old = word := by
  have whole := inside_of_drop stored
  refine List.ofFn_injective ?_
  rw [freadWord_whole whole, stored]
  exact List.take_left' List.length_ofFn

theorem freadCount_eq {pos : Nat} {word : Word} {rest : List Byte}
    (stored : file.drop pos = word.bytes ++ rest) : freadCount file pos 4 = 4 := by
  have whole := inside_of_drop stored
  unfold freadCount
  omega

theorem readId_eq {word : Word} {rest : List Byte}
    (stored : file.drop scan.pos = word.bytes ++ rest) :
    scan.readId file = ⟨scan.pos + 4, word, scan.chunkSize⟩ := by
  rw [Scan.readId, freadWord_eq stored, freadCount_eq stored]

theorem readSize_eq {word : Word} {rest : List Byte}
    (stored : file.drop scan.pos = word.bytes ++ rest) :
    scan.readSize file = ⟨scan.pos + 4, scan.chunkId, word⟩ := by
  rw [Scan.readSize, freadWord_eq stored, freadCount_eq stored]

theorem seek_nat (scan : Scan) (count : Nat) :
    scan.seek count = ⟨scan.pos + count, scan.chunkId, scan.chunkSize⟩ := by
  rw [Scan.seek, if_neg (by omega)]
  exact congrArg (fun pos => Scan.mk pos _ _) (by omega)

/-- The size of a chunk leads behind its content. -/
theorem skipChunk_eq {chunk : Chunk} (plain : chunk.Plain) {rest : List Byte}
    (stored : file.drop scan.pos =
      (Word.ofInt chunk.content.length).bytes ++ (chunk.content ++ rest)) :
    scan.skipChunk file =
      ⟨scan.pos + 4 + chunk.content.length, scan.chunkId, .ofInt chunk.content.length⟩ := by
  have small := plain.small
  have size : (Word.ofInt chunk.content.length).toInt = chunk.content.length :=
    Word.toInt_ofInt (by omega) (by omega)
  rw [Scan.skipChunk, readSize_eq stored, size, seek_nat]

theorem skipTo_chunks {tag : Word} {rest : List Byte} (chunks : List Chunk)
    (others : ∀ chunk ∈ chunks, chunk.id ≠ tag) (plain : ∀ chunk ∈ chunks, chunk.Plain)
    (stored : file.drop scan.pos = chunks.flatMap Chunk.bytes ++ (tag.bytes ++ rest)) :
    ∃ size, skipTo file tag (chunks.length + 1) (scan.readId file) =
      .ok ⟨scan.pos + (chunks.flatMap Chunk.bytes).length + 4, tag, size⟩ := by
  induction chunks generalizing scan with
  | nil =>
      refine ⟨scan.chunkSize, ?_⟩
      rw [readId_eq stored]
      exact if_pos rfl
  | cons chunk chunks ih =>
      have other := others chunk List.mem_cons_self
      have plainChunk := plain chunk List.mem_cons_self
      rw [List.flatMap_cons, plainChunk.bytes, List.append_assoc, List.append_assoc,
        List.append_assoc] at stored
      have behindId := drop_word stored
      have behindSize := drop_word behindId
      have behindChunk := drop_past behindSize
      let next : Scan := ⟨scan.pos + 4 + 4 + chunk.content.length, chunk.id,
        .ofInt chunk.content.length⟩
      have skipped : Scan.skipChunk file ⟨scan.pos + 4, chunk.id, scan.chunkSize⟩ = next :=
        skipChunk_eq plainChunk behindId
      obtain ⟨size, run⟩ := ih (fun chunk member => others chunk (List.mem_cons_of_mem _ member))
        (fun chunk member => plain chunk (List.mem_cons_of_mem _ member))
        (show file.drop next.pos = _ from behindChunk)
      have more : ¬ file.length < next.pos + 4 := by
        have length := congrArg List.length behindChunk
        rw [List.length_drop, List.length_append, List.length_append, List.length_ofFn] at length
        change ¬ file.length < scan.pos + 4 + 4 + chunk.content.length + 4
        omega
      refine ⟨size, ?_⟩
      rw [List.length_cons, readId_eq stored, skipTo, if_neg other, skipped, if_neg more, run,
        List.flatMap_cons, List.length_append, plainChunk.bytes, List.length_append,
        List.length_append, List.length_ofFn, List.length_ofFn]
      exact congrArg (fun pos => Except.ok (Scan.mk pos tag size)) (by
        change scan.pos + 4 + 4 + chunk.content.length + _ + 4 = _
        omega)

end Scans

/-! ## Where the parser finds the chunks -/

namespace Wav

def fmtPos (wav : Wav) : Nat :=
  12 + (wav.before.flatMap Chunk.bytes).length + 4

def dataPos (wav : Wav) : Nat :=
  wav.fmtPos + 20 + (wav.between.flatMap Chunk.bytes).length + 4

section Positions
variable (wav : Wav)

theorem format_length : wav.format.length = 20 := by
  simp only [format, List.length_append, List.length_ofFn, leEncode_length]

theorem drop_before : wav.bytes.drop 12 = wav.before.flatMap Chunk.bytes ++
    (fmt.bytes ++ (wav.format ++ (wav.between.flatMap Chunk.bytes ++
      (dataTag.bytes ++ wav.data)))) :=
  drop_word (drop_word (drop_word rfl))

theorem drop_format : wav.bytes.drop wav.fmtPos =
    wav.format ++ (wav.between.flatMap Chunk.bytes ++ (dataTag.bytes ++ wav.data)) :=
  drop_word (drop_past wav.drop_before)

theorem drop_between : wav.bytes.drop (wav.fmtPos + 20) =
    wav.between.flatMap Chunk.bytes ++ (dataTag.bytes ++ wav.data) :=
  wav.format_length ▸ drop_past wav.drop_format

theorem drop_data : wav.bytes.drop wav.dataPos = wav.data :=
  drop_word (drop_past wav.drop_between)

theorem riff_found (start : Start) (fuel : Nat) :
    skipTo wav.bytes riff (fuel + 1) ({ start.state.scan with pos := 0 }.readId wav.bytes) =
      .ok ⟨4, riff, start.chunkSize⟩ := by
  have stored : wav.bytes.drop 0 = riff.bytes ++ _ := rfl
  have read : Scan.readId wav.bytes ⟨0, start.chunkId, start.chunkSize⟩ =
      ⟨4, riff, start.chunkSize⟩ := readId_eq stored
  exact (congrArg (skipTo wav.bytes riff (fuel + 1)) read).trans (if_pos rfl)

theorem takeRiff_pos (state : State) (size : Word) :
    (state.takeRiff wav.bytes ⟨4, riff, size⟩).scan.pos = 12 := by
  have inside := inside_of_drop (drop_word (drop_word (show wav.bytes.drop 0 = _ from rfl)))
  change 0 + min 12 (wav.bytes.length - 0) = 12
  omega

theorem fmt_found (plain : ∀ chunk ∈ wav.before, chunk.Plain) {scan : Scan}
    (here : scan.pos = 12) : ∃ size,
    skipTo wav.bytes fmt (wav.before.length + 1) (scan.readId wav.bytes) =
      .ok ⟨wav.fmtPos, fmt, size⟩ := by
  obtain ⟨size, run⟩ := skipTo_chunks wav.before wav.notFmt plain (here ▸ wav.drop_before)
  rw [here] at run
  exact ⟨size, run⟩

theorem data_found (plain : ∀ chunk ∈ wav.between, chunk.Plain) {scan : Scan}
    (here : scan.pos = wav.fmtPos + 20) : ∃ size,
    skipTo wav.bytes dataTag (wav.between.length + 1) (scan.readId wav.bytes) =
      .ok ⟨wav.dataPos, dataTag, size⟩ := by
  obtain ⟨size, run⟩ := skipTo_chunks wav.between wav.notData plain (here ▸ wav.drop_between)
  rw [here] at run
  exact ⟨size, run⟩

end Positions

/-! ### What the array and `info` take -/

section Taken
variable (wav : Wav) (state : State) {scan : Scan}

theorem format_word (here : scan.pos = wav.fmtPos) :
    freadWord wav.bytes scan.pos state.formatSize = .ofInt 16 :=
  freadWord_eq (here ▸ wav.drop_format.trans (List.append_assoc _ _ _)) _

theorem format_headerPos (here : scan.pos = wav.fmtPos) :
    scan.headerPos wav.bytes = 12 + (wav.before.flatMap Chunk.bytes).length := by
  have whole := inside_of_drop (wav.drop_format.trans (List.append_assoc _ _ _))
  rw [headerPos_eq (by rw [here, fmtPos]; omega) (here ▸ whole), here, fmtPos]
  omega

def formatChunk : List Byte :=
  fmt.bytes ++ wav.format

theorem format_copied (here : scan.pos = wav.fmtPos) :
    (wav.bytes.drop (scan.headerPos wav.bytes)).take 24 = wav.formatChunk := by
  have behind := drop_past wav.drop_before
  have length : wav.formatChunk.length = 24 := by
    rw [formatChunk, List.length_append, List.length_ofFn, format_length]
  rw [wav.format_headerPos here, behind, ← List.append_assoc]
  exact List.take_left' length

theorem format_count (here : scan.pos = wav.fmtPos) : unsigned (2 ^ 32)
    (asInt ((freadWord wav.bytes scan.pos state.formatSize).toInt + 8)) = 24 := by
  rw [wav.format_word state here, Word.toInt_ofInt (by decide) (by decide)]
  decide

theorem takeFormat_header (here : scan.pos = wav.fmtPos) :
    (state.takeFormat wav.bytes scan).header = state.header.put 12 wav.formatChunk := by
  rw [← wav.format_copied here, ← wav.format_count state here]
  rfl

theorem takeFormat_pos (here : scan.pos = wav.fmtPos) :
    (state.takeFormat wav.bytes scan).scan.pos = wav.fmtPos + 20 := by
  have inside := congrArg List.length wav.drop_between
  rw [List.length_drop, List.length_append, List.length_append, List.length_ofFn] at inside
  change scan.headerPos wav.bytes + min (unsigned (2 ^ 32)
    (asInt ((freadWord wav.bytes scan.pos state.formatSize).toInt + 8)))
      (wav.bytes.length - scan.headerPos wav.bytes) = _
  rw [wav.format_count state here, wav.format_headerPos here]
  unfold fmtPos at inside ⊢
  omega

theorem formatChunk_get (header : Header) (front field behind : List Byte) {first : Int}
    (parts : wav.formatChunk = front ++ (field ++ behind)) (place : first = 12 + front.length) :
    (header.put 12 wav.formatChunk).get first field.length = field := by
  rw [place, parts, Header.get_put_inside _ _ _ _
    (by rw [List.length_append, List.length_append]; omega), List.drop_left, List.take_left]

theorem takeFormat_bits (here : scan.pos = wav.fmtPos) :
    (state.takeFormat wav.bytes scan).info.frameBits = 16 := by
  have field : (state.header.put 12 wav.formatChunk).get 34 2 = leEncode 2 16 := by
    refine wav.formatChunk_get state.header (fmt.bytes ++ (Word.ofInt 16).bytes ++ leEncode 2 1 ++
      leEncode 2 wav.channels ++ wav.sampleRate.bytes ++ wav.byteRate.bytes ++
        leEncode 2 wav.blockAlign) (leEncode 2 16) [] ?_ ?_
    · simp only [formatChunk, format, List.append_assoc, List.append_nil]
    · simp only [List.length_append, List.length_ofFn, leEncode_length]
      rfl
  change unsigned (2 ^ 16) ((state.takeFormat wav.bytes scan).header.short 34) = (16 : Int)
  rw [wav.takeFormat_header state here, Header.short, field]
  decide

theorem takeFormat_rate (here : scan.pos = wav.fmtPos) :
    (state.takeFormat wav.bytes scan).info.sampleRate = wav.sampleRate.toInt := by
  have field : (state.header.put 12 wav.formatChunk).get 24 4 = wav.sampleRate.bytes := by
    refine wav.formatChunk_get state.header (fmt.bytes ++ (Word.ofInt 16).bytes ++ leEncode 2 1 ++
      leEncode 2 wav.channels) wav.sampleRate.bytes (wav.byteRate.bytes ++
        (leEncode 2 wav.blockAlign ++ leEncode 2 16)) ?_ ?_
    · simp only [formatChunk, format, List.append_assoc]
    · simp only [List.length_append, List.length_ofFn, leEncode_length]
      rfl
  change (state.takeFormat wav.bytes scan).header.int 24 = _
  rw [wav.takeFormat_header state here, Header.int, field, Word.toInt]

theorem takeData_length (here : scan.pos = wav.dataPos) :
    (state.takeData wav.bytes scan).info.inputDataLen = wav.dataLen := by
  have stored : wav.bytes.drop scan.pos = (Word.ofInt wav.samples.length).bytes ++
      (wav.samples ++ wav.rest) := here ▸ wav.drop_data
  exact congrArg Word.toInt (freadWord_eq stored _)

end Taken

end Wav

end ImxTest.Asrc
