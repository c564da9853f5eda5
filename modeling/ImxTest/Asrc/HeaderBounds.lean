import ImxTest.Asrc.SampleLoops

/-!
# The bounds of the array `header`

`header_parser`, `bitshift` and `convert_data` address the array by the size of the "fmt "
chunk in the file, which none of them compares with `WAVE_HEAD_SIZE`.
-/

set_option autoImplicit false

namespace ImxTest.Asrc

open ImxTest.Lib.Exits (bind_ok bind_eq_ok toOption_eq_some)
open ImxTest.Lib.LittleEndian
open OutputSize

/-! ## Where a tag stands -/

def StandsBefore (file : File) (tag : Word) (pos : Nat) : Prop :=
  4 ≤ pos ∧ ∀ i : Fin 4, file[pos - 4 + i.val]? = some (tag i)

section Tags
variable {file : File} {tag : Word} {scan last : Scan} {fuel : Nat}

theorem StandsBefore.le_length {pos : Nat} (stands : StandsBefore file tag pos) :
    pos ≤ file.length := by
  obtain ⟨four, bytes⟩ := stands
  obtain ⟨inside, -⟩ := List.getElem?_eq_some_iff.mp (bytes 3)
  have three : ((3 : Fin 4) : Nat) = 3 := rfl
  omega

theorem readId_stands (whole : scan.pos + 4 ≤ file.length) :
    StandsBefore file (scan.readId file).chunkId (scan.readId file).pos := by
  have all : (scan.readId file).pos = scan.pos + 4 := by
    change scan.pos + min 4 (file.length - scan.pos) = scan.pos + 4
    omega
  refine ⟨by omega, fun i => ?_⟩
  have inside : scan.pos + i.val < file.length := by omega
  have place : (scan.readId file).pos - 4 + i.val = scan.pos + i.val := by omega
  rw [place]
  change _ = some ((file[scan.pos + i.val]?).getD (scan.chunkId i))
  rw [List.getElem?_eq_getElem inside]
  rfl

/-- A tag that is cut off keeps its old end. -/
theorem readId_cut (cut : file.length < scan.pos + 4) :
    (scan.readId file).chunkId 3 = scan.chunkId 3 := by
  have none : file[scan.pos + 3]? = none := List.getElem?_eq_none (by omega)
  change (file[scan.pos + 3]?).getD (scan.chunkId 3) = _
  rw [none]
  rfl

theorem skipTo_ok (run : skipTo file tag fuel scan = .ok last) :
    last.chunkId = tag ∧ (last = scan ∨ StandsBefore file tag last.pos) := by
  induction fuel generalizing scan with
  | zero => cases run
  | succ fuel ih =>
      rw [skipTo] at run
      split at run
      · next found =>
          cases run
          exact ⟨found, .inl rfl⟩
      · split at run
        · cases run
        · next whole =>
            obtain ⟨found, same | stands⟩ := ih run
            · subst same
              refine ⟨found, .inr ?_⟩
              rw [← found]
              exact readId_stands (not_lt.mp whole)
            · exact ⟨found, .inr stands⟩

theorem skipTo_stands (other : scan.chunkId 3 ≠ tag 3)
    (run : skipTo file tag fuel (scan.readId file) = .ok last) :
    last.chunkId = tag ∧ StandsBefore file tag last.pos := by
  obtain ⟨found, same | stands⟩ := skipTo_ok run
  · refine ⟨found, ?_⟩
    by_cases whole : scan.pos + 4 ≤ file.length
    · rw [← found, same]
      exact readId_stands whole
    · rw [← found, same, readId_cut (not_le.mp whole)] at other
      exact absurd rfl other
  · exact ⟨found, stands⟩

theorem common_byte : ∀ i j : Fin 4, fmt i = dataTag j → i = 2 ∧ j = 2 := by
  decide

theorem eight_le_length {fmtPos dataPos : Nat} (fmtStands : StandsBefore file fmt fmtPos)
    (dataStands : StandsBefore file dataTag dataPos) : 8 ≤ file.length := by
  by_contra short
  have fmtInside := fmtStands.le_length
  have dataInside := dataStands.le_length
  obtain ⟨fmtFour, fmtBytes⟩ := fmtStands
  obtain ⟨dataFour, dataBytes⟩ := dataStands
  -- The fourth byte of the file belongs to both tags.
  have shared := fmtBytes ⟨7 - fmtPos, by omega⟩
  have fmtPlace : fmtPos - 4 + (7 - fmtPos) = dataPos - 4 + (7 - dataPos) := by omega
  simp only [fmtPlace] at shared
  have byte := Option.some_inj.mp (shared.symm.trans (dataBytes ⟨7 - dataPos, by omega⟩))
  obtain ⟨fmtThird, dataThird⟩ := common_byte _ _ byte
  have samePos : fmtPos = dataPos := by
    have here := congrArg Fin.val fmtThird
    have there := congrArg Fin.val dataThird
    simp only [Fin.val_two] at here there
    omega
  subst samePos
  exact absurd (Option.some_inj.mp ((fmtBytes 0).symm.trans (dataBytes 0))) (by decide)

end Tags

/-! ## What each part touches -/

def Span.Inside (span : Span) : Prop :=
  ∀ i : Nat, i < span.count → 0 ≤ span.first + i ∧ span.first + i < waveHeadSize

instance (span : Span) : Decidable span.Inside :=
  inferInstanceAs (Decidable (∀ i : Nat, i < span.count → _))

def State.Inside (state : State) : Prop :=
  ∀ span ∈ state.touched, span.Inside

theorem Span.inside_of {first : Int} {count : Nat} (low : 0 ≤ first) (high : first + count ≤ 74) :
    (Span.mk first count).Inside := by
  intro i below
  change i < count at below
  change 0 ≤ first + i ∧ first + i < 74
  omega

theorem Span.inside_iff {span : Span} (positive : 0 < span.count) :
    span.Inside ↔ 0 ≤ span.first ∧ span.first + span.count ≤ 74 := by
  have size : waveHeadSize = 74 := rfl
  constructor
  · intro inside
    have first := inside 0 positive
    have last := inside (span.count - 1) (by omega)
    omega
  · rintro ⟨low, high⟩
    exact Span.inside_of low high

/-- The bytes of a number, addressed by the size of the "fmt " chunk. -/
theorem inside_shifted {value : Int} (low : -2 ^ 31 ≤ value) (high : value < 2 ^ 31) {offset : Int}
    (small : 0 ≤ offset ∧ offset < 2 ^ 16) {count : Nat} (positive : 0 < count) (few : count ≤ 16) :
    (Span.mk (asInt (offset + value)) count).Inside ↔
      -offset ≤ value ∧ value ≤ 74 - count - offset := by
  have wrapped := dvd_asInt_sub (offset + value)
  have bounds := asInt_bounds (offset + value)
  rw [Span.inside_iff positive]
  change 0 ≤ asInt (offset + value) ∧ asInt (offset + value) + count ≤ 74 ↔ _
  omega

/-- The position of the header of a chunk, eight bytes before what has been read of it. -/
def Scan.headerPos (file : File) (scan : Scan) : Nat :=
  ({ scan with pos := scan.pos + freadCount file scan.pos 4 }.seek (-8)).pos

/-- How many bytes are left of the file where the "fmt " chunk is read from. -/
def Scan.formatRest (file : File) (scan : Scan) : Nat :=
  file.length - scan.headerPos file

theorem copied_inside {value : Int} (bounds : -2 ^ 31 ≤ value ∧ value < 2 ^ 31)
    (fits : -24 ≤ value ∧ value ≤ 46) : (Span.mk 0 (asInt (value + 28)).toNat).Inside := by
  have wrapped := dvd_asInt_sub (value + 28)
  have range := asInt_bounds (value + 28)
  exact Span.inside_of le_rfl (by omega)

namespace State
variable (state : State) {first value : Int} {bytes : List Byte} {count : Nat}

@[simp] theorem touch_inside : (state.touch first count).Inside ↔
    state.Inside ∧ (Span.mk first count).Inside := by
  simp [State.Inside, State.touch, or_imp, forall_and]

theorem store_inside : (state.store first bytes).Inside ↔
    state.Inside ∧ (Span.mk first bytes.length).Inside :=
  state.touch_inside

@[simp] theorem storeInt_inside : (state.storeInt first value).Inside ↔
    state.Inside ∧ (Span.mk first 4).Inside := by
  rw [State.storeInt, store_inside, leEncode_length]

@[simp] theorem storeShort_inside : (state.storeShort first value).Inside ↔
    state.Inside ∧ (Span.mk first 2).Inside := by
  rw [State.storeShort, store_inside, leEncode_length]

theorem freadHeader_inside {file : File} : (state.freadHeader file first count).Inside ↔
    state.Inside ∧ (Span.mk first (min count (file.length - state.scan.pos))).Inside := by
  have length : ((file.drop state.scan.pos).take count).length =
      min count (file.length - state.scan.pos) := by
    rw [List.length_take, List.length_drop]
  rw [← length]
  exact state.touch_inside

/-! ### `header_parser` -/

variable {file : File} {scan : Scan}

theorem takeRiff_inside : (state.takeRiff file scan).Inside ↔ state.Inside := by
  rw [State.takeRiff, freadHeader_inside]
  exact and_iff_left (Span.inside_of le_rfl (by omega))

theorem readFormat_inside : state.readFormat.Inside ↔ state.Inside := by
  change ((((state.touch 22 2).touch 24 4).touch 32 2).touch 34 2).Inside ↔ _
  simp only [touch_inside]
  exact ⟨fun all => all.1.1.1.1,
    fun inside => ⟨⟨⟨⟨inside, by decide⟩, by decide⟩, by decide⟩, by decide⟩⟩

theorem takeFormat_inside : (state.takeFormat file scan).Inside ↔
    state.Inside ∧ min (unsigned (2 ^ 32) (asInt ((freadWord file scan.pos
      state.formatSize).toInt + 8))) (scan.formatRest file) ≤ 62 := by
  refine (readFormat_inside _).trans ((freadHeader_inside _).trans (and_congr_right fun _ => ?_))
  constructor
  · intro inside
    by_contra more
    have last : (12 : Int) + (62 : Nat) < 74 := (inside 62 (not_le.mp more)).2
    omega
  · intro few
    exact Span.inside_of (by decide) (Int.add_le_add_left (Int.ofNat_le.mpr few) 12)

theorem takeData_inside (eight : 8 ≤ file.length) (stands : StandsBefore file dataTag scan.pos) :
    (state.takeData file scan).Inside ↔
      state.Inside ∧ (Span.mk (asInt (state.formatSize.toInt + 20)) 8).Inside := by
  refine (freadHeader_inside _).trans (and_congr_right fun _ => ?_)
  have bounds := stands.le_length
  have four := stands.1
  have pos : scan.headerPos file + 8 ≤ file.length := by
    unfold Scan.headerPos Scan.seek freadCount
    split
    · next before =>
        change ((scan.pos + min 4 (file.length - scan.pos) : Nat) : Int) + -8 < 0 at before
        omega
    · change (((scan.pos + min 4 (file.length - scan.pos) : Nat) : Int) + -8).toNat + 8 ≤ _
      omega
  have all : min 8 (file.length - scan.headerPos file) = 8 := by omega
  exact iff_of_eq (congrArg (fun count =>
    (Span.mk (asInt (state.formatSize.toInt + 20)) count).Inside) all)

theorem patch_inside (size : Int) : (state.patch size).Inside ↔
    state.Inside ∧ (Span.mk (asInt (24 + state.formatSize.toInt)) 4).Inside := by
  rw [State.patch]
  simp only [storeInt_inside]
  exact ⟨fun all => all.1.1.1, fun both => ⟨⟨⟨both, by decide⟩, by decide⟩, by decide⟩⟩

/-! ### `bitshift` and `convert_data` -/

theorem updateDatachunkLength_inside (formatSize : Int) :
    (state.updateDatachunkLength formatSize).Inside ↔
      state.Inside ∧ (Span.mk (asInt (24 + formatSize)) 4).Inside := by
  rw [State.updateDatachunkLength]
  simp only [storeInt_inside]
  exact and_iff_left (by decide)

theorem updateBlockalign_inside : state.updateBlockalign.Inside ↔ state.Inside := by
  rw [State.updateBlockalign]
  simp only [storeInt_inside, storeShort_inside]
  exact ⟨fun all => all.1.1, fun inside => ⟨⟨inside, by decide⟩, by decide⟩⟩

theorem updateSampleBitdepth_inside : state.updateSampleBitdepth.Inside ↔ state.Inside := by
  rw [State.updateSampleBitdepth, storeShort_inside]
  exact and_iff_left (by decide)

theorem shift_inside : state.shift.Inside ↔ state.Inside ∧
    (state.info.frameBits ≤ 16 → (Span.mk (asInt (24 + state.header.int 16)) 4).Inside) := by
  have noted : (state.touch 16 4).Inside ↔ state.Inside :=
    state.touch_inside.trans (and_iff_left (by decide))
  unfold State.shift
  by_cases narrow : state.info.frameBits ≤ 16
  · simp only [narrow, true_imp_iff, ← noted]
    refine (updateSampleBitdepth_inside _).trans ?_
    refine (updateBlockalign_inside _).trans ?_
    exact updateDatachunkLength_inside _ _
  · simp only [narrow, false_imp_iff, and_true, ← noted]
    exact updateSampleBitdepth_inside _

theorem finish_inside : state.finish.1.Inside ↔ state.Inside ∧
    (Span.mk (asInt (24 + state.header.int 16)) 4).Inside ∧
      (Span.mk 0 (asInt (state.header.int 16 + 28)).toNat).Inside := by
  unfold State.finish
  simp only [touch_inside, storeInt_inside]
  constructor
  · rintro ⟨⟨⟨⟨⟨inside, -⟩, sized⟩, -⟩, -⟩, written⟩
    exact ⟨inside, sized, written⟩
  · rintro ⟨inside, sized, written⟩
    exact ⟨⟨⟨⟨⟨inside, by decide⟩, sized⟩, by decide⟩, sized⟩, written⟩

end State

/-! ## What is stored of the size -/

section Stored
variable {file : File} {state : State} {scan : Scan}

theorem headerPos_eq (four : 4 ≤ scan.pos)
    (whole : scan.pos + 4 ≤ file.length) :
    scan.headerPos file = scan.pos - 4 := by
  have all : freadCount file scan.pos 4 = 4 := by
    unfold freadCount
    omega
  rw [Scan.headerPos, all, Scan.seek]
  split
  · next before =>
      change ((scan.pos + 4 : Nat) : Int) + -8 < 0 at before
      omega
  · change (((scan.pos + 4 : Nat) : Int) + -8).toNat = scan.pos - 4
    omega

theorem takeFormat_size (four : 4 ≤ scan.pos) (whole : scan.pos + 4 ≤ file.length)
    (enough : 8 ≤ unsigned (2 ^ 32)
      (asInt ((freadWord file scan.pos state.formatSize).toInt + 8))) :
    (state.takeFormat file scan).header.int 16 =
      (freadWord file scan.pos state.formatSize).toInt := by
  let bytes := (file.drop (scan.headerPos file)).take
    (unsigned (2 ^ 32) (asInt ((freadWord file scan.pos state.formatSize).toInt + 8)))
  have copied : (bytes.drop 4).take 4 = List.ofFn (freadWord file scan.pos state.formatSize) := by
    rw [freadWord_whole whole, List.drop_take, List.drop_drop, List.take_take,
      Nat.min_eq_left (by omega), headerPos_eq four whole, Nat.sub_add_cancel four]
  have inside : 4 + 4 ≤ bytes.length := by
    rw [List.length_take, List.length_drop, headerPos_eq four whole]
    omega
  rw [Word.toInt, ← copied, ← state.header.get_put_inside 12 4 4 inside, Header.int]
  rfl

theorem takeData_header : (state.takeData file scan).header =
    state.header.put (asInt (state.formatSize.toInt + 20))
      ((file.drop (scan.headerPos file)).take 8) :=
  rfl

theorem takeData_size (apart : asInt (state.formatSize.toInt + 20) + 8 ≤ 16 ∨
    20 ≤ asInt (state.formatSize.toInt + 20)) :
    (state.takeData file scan).header.int 16 = state.header.int 16 := by
  have few := List.length_take_le 8 (file.drop (scan.headerPos file))
  rw [takeData_header, Header.int_put_other _ (by omega)]

theorem patch_header (size : Int) : (state.patch size).header =
    (((state.header.put (asInt (24 + state.formatSize.toInt))
      (leEncode 4 (unsigned (2 ^ 32) size))).put 4 (leEncode 4 (unsigned (2 ^ 32)
        (asInt (asInt (size + 20) + state.formatSize.toInt))))).put 24
      (leEncode 4 (unsigned (2 ^ 32) state.info.outputSampleRate))).put 28
      (leEncode 4 (unsigned (2 ^ 32) (asInt (asInt
        (state.info.outputSampleRate * state.info.channel) * (state.info.frameBits / 8))))) :=
  rfl

theorem patch_size {size : Int} (apart : asInt (24 + state.formatSize.toInt) + 4 ≤ 16 ∨
    20 ≤ asInt (24 + state.formatSize.toInt)) :
    (state.patch size).header.int 16 = state.header.int 16 := by
  have four (value : Int) : (leEncode 4 (unsigned (2 ^ 32) value)).length = 4 :=
    leEncode_length 4 _
  rw [patch_header, Header.int_put_other _ (.inl (by decide)),
    Header.int_put_other _ (.inl (by decide)),
    Header.int_put_other _ (.inr (by rw [four]; decide)),
    Header.int_put_other _ (by rw [four]; omega)]

end Stored

/-! ## Every accepted run -/

section Found
variable {file : File} {fuel : Nat} {state : State} {scan : Scan}

theorem findRiff_eq
    (found : skipTo file riff fuel ({ state.scan with pos := 0 }.readId file) = .ok scan) :
    findRiff file fuel state = .ok (state.takeRiff file scan) := by
  rw [findRiff, found]
  rfl

theorem findFmt_eq (found : skipTo file fmt fuel (state.scan.readId file) = .ok scan) :
    findFmt file fuel state = .ok (state.takeFormat file scan) := by
  rw [findFmt, found]
  rfl

theorem findData_eq (found : skipTo file dataTag fuel (state.scan.readId file) = .ok scan) :
    findData file fuel state = .ok (state.takeData file scan) := by
  rw [findData, found]
  rfl

end Found

/-- A run in which `header_parser` accepts the file, with the scans behind the tags. -/
structure Accepted where
  file : File
  start : Start
  fuel : Nat
  riffScan : Scan
  fmtScan : Scan
  dataScan : Scan
  outputDataLen : Int
  foundRiff : skipTo file riff fuel ({ start.state.scan with pos := 0 }.readId file) = .ok riffScan
  foundFmt : skipTo file fmt fuel ((start.state.takeRiff file riffScan).scan.readId file) =
    .ok fmtScan
  foundData : skipTo file dataTag fuel
    (((start.state.takeRiff file riffScan).takeFormat file fmtScan).scan.readId file) = .ok dataScan
  sized : outputSize fuel (((start.state.takeRiff file riffScan).takeFormat file fmtScan).takeData
    file dataScan).info = .ok outputDataLen

namespace Accepted

def formatState (run : Accepted) : State :=
  (run.start.state.takeRiff run.file run.riffScan).takeFormat run.file run.fmtScan

def dataState (run : Accepted) : State :=
  run.formatState.takeData run.file run.dataScan

def state (run : Accepted) : State :=
  run.dataState.patch run.outputDataLen

theorem parsed (run : Accepted) :
    headerParser run.file run.fuel run.start.state = .ok run.state := by
  rw [headerParser, findRiff_eq run.foundRiff, bind_ok, findFmt_eq run.foundFmt, bind_ok,
    findData_eq run.foundData, bind_ok, run.sized, bind_ok]
  rfl

theorem exists_of_parsed {file : File} {fuel : Nat} {start : Start} {state : State}
    (parsed : headerParser file fuel start.state = .ok state) :
    ∃ run : Accepted, run.file = file ∧ run.start = start ∧ run.fuel = fuel ∧
      run.state = state := by
  obtain ⟨a, riffPart, parsed⟩ := bind_eq_ok parsed
  obtain ⟨b, fmtPart, parsed⟩ := bind_eq_ok parsed
  obtain ⟨c, dataPart, parsed⟩ := bind_eq_ok parsed
  obtain ⟨size, sized, parsed⟩ := bind_eq_ok parsed
  obtain ⟨riffScan, foundRiff, taken⟩ := bind_eq_ok riffPart
  cases taken
  obtain ⟨fmtScan, foundFmt, taken⟩ := bind_eq_ok fmtPart
  cases taken
  obtain ⟨dataScan, foundData, taken⟩ := bind_eq_ok dataPart
  cases taken
  cases parsed
  exact ⟨⟨file, start, fuel, riffScan, fmtScan, dataScan, size, foundRiff, foundFmt, foundData,
    sized⟩, rfl, rfl, rfl, rfl⟩

/-- The size of the "fmt " chunk, as it stands in the file. -/
def formatSize (run : Accepted) : Int :=
  (freadWord run.file run.fmtScan.pos run.start.formatSize).toInt

/-- The size stands in the file whole, and in the array no other field lies across it. -/
def SizeApart (run : Accepted) : Prop :=
  run.fmtScan.pos + 4 ≤ run.file.length ∧ (run.formatSize < -11 ∨ 0 ≤ run.formatSize)

structure StaysInside (run : Accepted) : Prop where
  parser : run.state.Inside
  shift : ∀ data fuel shifted,
    bitshift run.file data fuel run.state = .ok shifted → shifted.1.Inside
  convert : ∀ data fuel shifted reports played,
    bitshift run.file data fuel run.state = .ok shifted →
      playFile reports shifted.1.info = .ok played →
        { shifted.1 with info := played }.finish.1.Inside

/-- The size keeps the fields of the array inside.  Where it is negative or cut off, the
sizes that `bitshift` and `convert_data` find in the array have to do so too. -/
structure Fits (run : Accepted) : Prop where
  low : -20 ≤ run.formatSize
  high : run.formatSize ≤ 46
  rest : run.formatSize < -8 → run.fmtScan.formatRest run.file ≤ 62
  narrow : ¬ run.SizeApart → run.state.info.frameBits ≤ 16 →
    -24 ≤ run.state.header.int 16 ∧ run.state.header.int 16 ≤ 46
  last : ¬ run.SizeApart →
    -24 ≤ run.state.shift.header.int 16 ∧ run.state.shift.header.int 16 ≤ 46

section Facts
variable (run : Accepted)

theorem formatState_formatSize : run.formatState.formatSize.toInt = run.formatSize :=
  rfl

theorem dataState_formatSize : run.dataState.formatSize.toInt = run.formatSize :=
  rfl

theorem formatSize_bounds : -2 ^ 31 ≤ run.formatSize ∧ run.formatSize < 2 ^ 31 :=
  Word.toInt_bounds _

theorem seek_chunkId (scan : Scan) (offset : Int) : (scan.seek offset).chunkId = scan.chunkId := by
  unfold Scan.seek
  split
  · rfl
  · rfl

theorem fmt_stands : run.fmtScan.chunkId = fmt ∧ StandsBefore run.file fmt run.fmtScan.pos := by
  refine skipTo_stands ?_ run.foundFmt
  have tag : (run.start.state.takeRiff run.file run.riffScan).scan.chunkId =
      run.riffScan.chunkId := seek_chunkId _ _
  rw [tag, (skipTo_ok run.foundRiff).1]
  decide

theorem data_stands : StandsBefore run.file dataTag run.dataScan.pos := by
  refine (skipTo_stands ?_ run.foundData).2
  have tag : ((run.start.state.takeRiff run.file run.riffScan).takeFormat run.file
      run.fmtScan).scan.chunkId = run.fmtScan.chunkId := seek_chunkId _ _
  rw [tag, run.fmt_stands.1]
  decide

theorem parser_inside_iff : run.state.Inside ↔
    -20 ≤ run.formatSize ∧ run.formatSize ≤ 46 ∧
      (run.formatSize < -8 → run.fmtScan.formatRest run.file ≤ 62) := by
  have eight := eight_le_length run.fmt_stands.2 run.data_stands
  have empty : run.start.state.Inside := fun span member => absurd member List.not_mem_nil
  have bounds := run.formatSize_bounds
  have format : run.formatState.Inside ↔
      min (unsigned (2 ^ 32) (asInt (run.formatSize + 8))) (run.fmtScan.formatRest run.file) ≤ 62 :=
    (State.takeFormat_inside _).trans (and_iff_right ((State.takeRiff_inside _).mpr empty))
  rw [Accepted.state, State.patch_inside, dataState_formatSize, Accepted.dataState,
    State.takeData_inside _ eight run.data_stands, formatState_formatSize, format]
  rw [add_comm run.formatSize 20,
    inside_shifted bounds.1 bounds.2 (by decide) (by decide) (by decide),
    inside_shifted bounds.1 bounds.2 (by decide) (by decide) (by decide)]
  have wrapped := dvd_unsigned_sub (2 ^ 32) (asInt (run.formatSize + 8)) (by decide)
  have below := unsigned_lt (2 ^ 32) (asInt (run.formatSize + 8)) (by decide)
  have turns := dvd_asInt_sub (run.formatSize + 8)
  constructor
  · rintro ⟨⟨few, header⟩, length⟩
    exact ⟨by omega, by omega, fun negative => by omega⟩
  · rintro ⟨low, high, rest⟩
    exact ⟨⟨by omega, by omega⟩, by omega⟩

/-- The size is stored in the array and nothing is stored across it. -/
theorem header_size (apart : run.SizeApart) (low : -20 ≤ run.formatSize)
    (high : run.formatSize ≤ 46) : run.state.header.int 16 = run.formatSize := by
  obtain ⟨whole, apart⟩ := apart
  obtain ⟨four, -⟩ := run.fmt_stands.2
  have header : asInt (run.formatSize + 20) = run.formatSize + 20 :=
    Int.bmod_eq_of_le (by omega) (by omega)
  have length : asInt (24 + run.formatSize) = 24 + run.formatSize :=
    Int.bmod_eq_of_le (by omega) (by omega)
  have wrapped := dvd_unsigned_sub (2 ^ 32) (asInt (run.formatSize + 8)) (by decide)
  have turns := dvd_asInt_sub (run.formatSize + 8)
  have enough : 8 ≤ unsigned (2 ^ 32) (asInt (run.formatSize + 8)) := by omega
  rw [Accepted.state, patch_size (by rw [run.dataState_formatSize]; omega), Accepted.dataState,
    takeData_size (by rw [run.formatState_formatSize]; omega)]
  exact takeFormat_size four whole enough

theorem shift_size (apart : run.SizeApart) (low : -20 ≤ run.formatSize)
    (high : run.formatSize ≤ 46) : run.state.shift.header.int 16 = run.formatSize := by
  have size := run.header_size apart low high
  rw [State.shift_formatSize, size]
  split
  · have place : asInt (24 + run.formatSize) = 24 + run.formatSize :=
      Int.bmod_eq_of_le (by omega) (by omega)
    have four : (leEncode 4 (unsigned (2 ^ 32)
        (asInt (run.state.info.outputDataLen <<< (1 : Nat))))).length = 4 := leEncode_length 4 _
    obtain ⟨-, apart⟩ := apart
    rw [Header.int_put_other _ (by rw [place, four]; omega), size]
  · rfl

theorem staysInside_iff_sizes : run.StaysInside ↔ run.state.Inside ∧
    (run.state.info.frameBits ≤ 16 →
      -24 ≤ run.state.header.int 16 ∧ run.state.header.int 16 ≤ 46) ∧
      -24 ≤ run.state.shift.header.int 16 ∧ run.state.shift.header.int 16 ≤ 46 := by
  have sizes (header : Header) : (Span.mk (asInt (24 + header.int 16)) 4).Inside ↔
      -24 ≤ header.int 16 ∧ header.int 16 ≤ 46 := by
    obtain ⟨low, high⟩ := header.int_bounds 16
    exact inside_shifted low high (by decide) (by decide) (by decide)
  have shift := run.state.shift_inside
  rw [sizes] at shift
  constructor
  · rintro ⟨parser, shifts, converts⟩
    obtain ⟨fuel, shifted, shiftRun⟩ := exists_shifted run.file (fun _ => 0) run.state
    obtain ⟨played, playRun⟩ := playFile_full shifted.1.info
    have converted := converts _ _ _ _ _ shiftRun playRun
    obtain ⟨pos, state⟩ := bitshift_state shiftRun
    have shiftedInside := shifts _ _ _ shiftRun
    rw [state] at shiftedInside converted
    refine ⟨parser, (shift.mp shiftedInside).2, ?_⟩
    exact (sizes _).mp ((State.finish_inside _).mp converted).2.1
  · rintro ⟨parser, narrow, last⟩
    refine ⟨parser, fun data fuel shifted shiftRun => ?_,
      fun data fuel shifted reports played shiftRun playRun => ?_⟩
    · obtain ⟨pos, state⟩ := bitshift_state shiftRun
      rw [state]
      exact shift.mpr ⟨parser, narrow⟩
    · obtain ⟨pos, state⟩ := bitshift_state shiftRun
      rw [state]
      refine (State.finish_inside _).mpr ⟨shift.mpr ⟨parser, narrow⟩, (sizes _).mpr last, ?_⟩
      exact copied_inside (Header.int_bounds _ _) last

theorem staysInside_iff : run.StaysInside ↔ run.Fits := by
  rw [staysInside_iff_sizes, parser_inside_iff]
  constructor
  · rintro ⟨⟨low, high, rest⟩, narrow, last⟩
    exact ⟨low, high, rest, fun _ => narrow, fun _ => last⟩
  · rintro ⟨low, high, rest, narrow, last⟩
    refine ⟨⟨low, high, rest⟩, ?_⟩
    by_cases apart : run.SizeApart
    · rw [run.header_size apart low high, run.shift_size apart low high]
      exact ⟨fun _ => ⟨by omega, high⟩, by omega, high⟩
    · exact ⟨narrow apart, last apart⟩

end Facts

end Accepted

/-- A "fmt " chunk of 16 bytes. -/
example : ∃ run : Accepted, run.Fits := by
  have sizes : (headerParser noSamples 2 zeroStart.state).toOption.map (fun state =>
      (state.formatSize.toInt, state.header.int 16, state.shift.header.int 16)) =
      some (16, 16, 16) := by
    decide +kernel
  obtain ⟨state, accepted, equal⟩ := Option.map_eq_some_iff.mp sizes
  obtain ⟨run, -, -, -, rfl⟩ := Accepted.exists_of_parsed (toOption_eq_some accepted)
  obtain ⟨size, header, shifted⟩ : run.state.formatSize.toInt = 16 ∧
      run.state.header.int 16 = 16 ∧ run.state.shift.header.int 16 = 16 := by
    simpa using equal
  change run.formatSize = 16 at size
  exact ⟨run, by omega, by omega, by omega, fun _ _ => by omega, fun _ => by omega⟩

/-- A "fmt " chunk of 48 bytes, the first even size that leaves no place for "data". -/
def longFormat : File :=
  [0x52, 0x49, 0x46, 0x46, 0x48, 0, 0, 0, 0x57, 0x41, 0x56, 0x45,
    0x66, 0x6d, 0x74, 0x20, 0x30, 0, 0, 0, 1, 0, 2, 0,
    0x80, 0xbb, 0, 0, 0, 0xee, 2, 0, 4, 0, 0x10, 0] ++ List.replicate 32 0 ++
  [0x64, 0x61, 0x74, 0x61, 4, 0, 0, 0, 0, 0, 0, 0]

theorem longFormat_overruns : ¬ ∀ run : Accepted, run.StaysInside := by
  intro always
  have size : (headerParser longFormat 2 zeroStart.state).toOption.map
      (fun state => state.formatSize.toInt) = some 48 := by
    decide +kernel
  obtain ⟨state, accepted, size⟩ := Option.map_eq_some_iff.mp size
  obtain ⟨run, -, -, -, rfl⟩ := Accepted.exists_of_parsed (toOption_eq_some accepted)
  have parser := (run.staysInside_iff_sizes.mp (always run)).1
  have high := (run.parser_inside_iff.mp parser).2.1
  change run.state.formatSize.toInt ≤ 46 at high
  omega

end ImxTest.Asrc
