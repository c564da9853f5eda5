import ImxTest.Lib.ByteMem
import ImxTest.Lib.CString
import ImxTest.Lib.Exits
import ImxTest.Lib.LittleEndian
import Mathlib.Tactic.Linarith

/-!
# The loop-back verdict of the SPI test

`main` sends at most a limit of bytes of its last argument, and `check_data_integrity`
compares what came back word by word.  The limit is chosen by a chain of tests whose
later branches also take words and lengths that an earlier one was meant for, and the
number of words is a quotient, which drops an incomplete last word.
-/

set_option autoImplicit false

namespace ImxTest.Spi

open ImxTest.Lib.ByteMem
open ImxTest.Lib
open ImxTest.Lib.CString
open ImxTest.Lib.LittleEndian

abbrev Byte : Type := UInt8

abbrev Buffer : Type := Nat → Byte

def bufMaxSize : Nat := 0x1000

structure Corrupted where
  index : Nat
  wbuf : Int
  rbuf : Int
  deriving DecidableEq, Repr

structure Verdict where
  result : Int
  lines : List Corrupted
  deriving DecidableEq, Repr

/-- `buf[i]` for a pointer to words of `size` bytes. -/
def wordAt (size : Nat) (buf : Buffer) (i : Nat) : BitVec (8 * size) :=
  BitVec.ofNat (8 * size) (leDecode (readAt buf (size * i) size))

def promote {w : Nat} (signedWord : Bool) (x : BitVec w) : BitVec 32 :=
  if signedWord then x.signExtend 32 else x.setWidth 32

def mask (bits : Nat) : BitVec 32 :=
  (1#32 <<< bits) - 1#32

/-- The sent word under the mask in the type of the word. -/
def maskedWord (signedWord : Bool) (bits size : Nat) (buf : Buffer) (i : Nat) : BitVec 32 :=
  promote signedWord (wordAt size buf i) &&& promote signedWord ((mask bits).setWidth (8 * size))

section Check
variable (signedChar : Bool) (bits : Nat) (buf1 buf2 : Buffer)

def compareWord (i : Nat) : Option Corrupted :=
  if 16 < bits then
    if maskedWord true bits 4 buf1 i ≠ promote true (wordAt 4 buf2 i) then
      some ⟨i, (wordAt 4 buf1 i).toInt, (wordAt 4 buf2 i).toInt⟩
    else none
  else if 8 < bits then
    if maskedWord true bits 2 buf1 i ≠ promote true (wordAt 2 buf2 i) then
      some ⟨i, (wordAt 2 buf1 i).toInt, (wordAt 2 buf2 i).toInt⟩
    else none
  else if maskedWord signedChar bits 1 buf1 i ≠ promote signedChar (wordAt 1 buf2 i) then
    some ⟨i, (maskedWord signedChar bits 1 buf1 i).toInt,
      (promote signedChar (wordAt 1 buf2 i)).toInt⟩
  else none

def Verdict.pass (verdict : Verdict) (line : Option Corrupted) : Verdict :=
  match line with
  | some corrupted => ⟨-1, verdict.lines ++ [corrupted]⟩
  | none => verdict

def wordCount (count : Nat) : Nat :=
  if 16 < bits then count / 4 else if 8 < bits then count / 2 else count

def checkDataIntegrity (count : Nat) : Verdict :=
  ((List.range (wordCount bits count)).map (compareWord signedChar bits buf1 buf2)).foldl
    Verdict.pass ⟨0, []⟩

end Check

/-- The `len` that `main` computes from `bits_per_word` and `bytes`. -/
def transferLength (bits bytes : Nat) : Nat :=
  if bits ≤ 8 ∧ bytes > bufMaxSize then bufMaxSize
  else if bits ≤ 16 ∧ bytes > bufMaxSize / 2 then bufMaxSize / 2
  else if bytes > bufMaxSize / 4 then bufMaxSize / 4
  else bytes

/-- `memset` and `strcpy` into the buffer for the transfer.  It is allocated with `bufMaxSize`
bytes; a value of as many or more runs over its end, which is not modelled. -/
def sendBuffer (value : List Byte) : Buffer :=
  writeAt (fun _ => 0) 0 (value ++ [0])

structure Options where
  spiId : Option Int
  speed : Nat
  bitsPerWord : Nat
  cpha : Bool
  cpol : Bool
  csHigh : Bool
  deriving DecidableEq, Repr

inductive Refusal where
  | usage | noArgument | device | parameter | bufferSize
  deriving DecidableEq, Repr

/-- The loop of `main` over the arguments; `atoi` reads no argument behind the last. -/
def scanArgs : List Text → Options → Except Refusal Options
  | [], options => .ok options
  | arg :: rest, options =>
      if arg = ['-', 'D'] then
        match rest with
        | [] => .error .noArgument
        | value :: rest =>
            if strtol 32 value < 0 ∨ strtol 32 value > 2 then .error .device
            else scanArgs rest { options with spiId := some (strtol 32 value) }
      else if arg = ['-', 's'] then
        match rest with
        | [] => .error .noArgument
        | value :: rest =>
            scanArgs rest { options with speed := unsigned (2 ^ 32) (strtol 32 value) }
      else if arg = ['-', 'b'] then
        match rest with
        | [] => .error .noArgument
        | value :: rest =>
            scanArgs rest { options with bitsPerWord := unsigned (2 ^ 8) (strtol 32 value) }
      else if arg = ['-', 'H'] then scanArgs rest { options with cpha := true }
      else if arg = ['-', 'O'] then scanArgs rest { options with cpol := true }
      else if arg = ['-', 'C'] then scanArgs rest { options with csHigh := true }
      else if rest ≠ [] then .error .parameter
      else scanArgs rest options

/-- What `main` passes to `execute_buffer_test`, with the options that it has set. -/
structure BufferTest where
  options : Options
  len : Nat
  buffer : Buffer

def bytesOf (text : Text) : List Byte :=
  text.map fun c => UInt8.ofNat c.toNat

def main (args : List Text) : Except Refusal BufferTest :=
  match args.getLast? with
  | none => .error .usage
  | some value => do
      let options ← scanArgs args ⟨none, 100000, 8, false, false, false⟩
      if value.length < 1 then .error .bufferSize
      else .ok ⟨options, transferLength options.bitsPerWord value.length,
        sendBuffer (bytesOf value)⟩

/-- A word size and a value that the test is started with. -/
structure Transfer where
  bits : Nat
  low : 1 ≤ bits
  high : bits ≤ 31
  value : List Byte
  nonempty : value ≠ []

def Transfer.bytes (t : Transfer) : Nat :=
  t.value.length

def limit (bits : Nat) : Nat :=
  if bits ≤ 8 then 4096 else if bits ≤ 16 then 2048 else 1024

def wordSize (bits : Nat) : Nat :=
  if bits ≤ 8 then 1 else if bits ≤ 16 then 2 else 4

/-- The number that the bytes of word `i` make up, as far as the length holds them. -/
def partValue (size len : Nat) (buf : Buffer) (i : Nat) : Nat :=
  leDecode (readAt buf (size * i) (min size (len - size * i)))

def WordReceived (bits len : Nat) (sent received : Buffer) (i : Nat) : Prop :=
  partValue (wordSize bits) len received i = partValue (wordSize bits) len sent i % 2 ^ bits

instance (bits len : Nat) (sent received : Buffer) (i : Nat) :
    Decidable (WordReceived bits len sent received i) :=
  inferInstanceAs (Decidable (_ = _))

/-- The length is the documented one, and the verdict is about each word of it. -/
structure Covers (signedChar : Bool) (t : Transfer) (received : Buffer) : Prop where
  length : transferLength t.bits t.bytes = min t.bytes (limit t.bits)
  verdict : (checkDataIntegrity signedChar t.bits (sendBuffer t.value) received
      (transferLength t.bits t.bytes)).result = 0 ↔
    ∀ i, wordSize t.bits * i < transferLength t.bits t.bytes →
      WordReceived t.bits (transferLength t.bits t.bytes) (sendBuffer t.value) received i

def InClamp (t : Transfer) : Prop :=
  16 < t.bits ∨ t.bytes ≤ 1024 ∨ limit t.bits < t.bytes

structure OnlyLastWrong (t : Transfer) (received : Buffer) : Prop where
  short : t.bytes < limit t.bits
  incomplete : ¬ wordSize t.bits ∣ t.bytes
  wrong : ¬ WordReceived t.bits t.bytes (sendBuffer t.value) received (t.bytes / wordSize t.bits)
  others : ∀ i < t.bytes / wordSize t.bits,
    WordReceived t.bits t.bytes (sendBuffer t.value) received i

section Words
variable {signedChar : Bool} {bits : Nat}

theorem mask_toNat (high : bits ≤ 31) : (mask bits).toNat = 2 ^ bits - 1 := by
  have small : 2 ^ bits ≤ 2 ^ 31 := Nat.pow_le_pow_right (by decide) high
  have positive : 0 < 2 ^ bits := Nat.two_pow_pos bits
  have shifted : (1#32 <<< bits).toNat = 2 ^ bits := by
    rw [BitVec.toNat_shiftLeft, Nat.shiftLeft_eq]
    exact (congrArg (· % 2 ^ 32) (Nat.one_mul _)).trans (Nat.mod_eq_of_lt (by omega))
  rw [mask, BitVec.toNat_sub, shifted, BitVec.toNat_ofNat]
  omega

theorem promote_and {w : Nat} (signedWord : Bool) (x y : BitVec w) :
    promote signedWord x &&& promote signedWord y = promote signedWord (x &&& y) := by
  cases signedWord with
  | true => exact BitVec.signExtend_and.symm
  | false => exact BitVec.setWidth_and.symm

theorem promote_inj {w : Nat} (narrow : w ≤ 32) (signedWord : Bool) {x y : BitVec w} :
    promote signedWord x = promote signedWord y ↔ x = y := by
  refine ⟨fun same => ?_, congrArg _⟩
  cases signedWord with
  | true =>
      have values := congrArg BitVec.toInt same
      simp only [promote, if_true] at values
      rw [BitVec.toInt_signExtend_of_le narrow, BitVec.toInt_signExtend_of_le narrow] at values
      exact BitVec.toInt_inj.mp values
  | false =>
      have values := congrArg BitVec.toNat same
      simp only [promote, Bool.false_eq_true, if_false] at values
      rw [BitVec.toNat_setWidth_of_le narrow, BitVec.toNat_setWidth_of_le narrow] at values
      exact BitVec.toNat_inj.mp values

theorem wordAt_toNat (size : Nat) (buf : Buffer) (i : Nat) :
    (wordAt size buf i).toNat = leDecode (readAt buf (size * i) size) := by
  have below := leDecode_lt (readAt buf (size * i) size)
  rw [readAt_length] at below
  rw [wordAt, BitVec.toNat_ofNat, Nat.mod_eq_of_lt below]

/-- Both sides are promoted alike, so that they are compared as words. -/
theorem maskedWord_eq_iff {size : Nat} (narrow : size ≤ 4) (fits : bits ≤ 8 * size)
    (high : bits ≤ 31) (signedWord : Bool) (buf1 buf2 : Buffer) (i : Nat) :
    maskedWord signedWord bits size buf1 i = promote signedWord (wordAt size buf2 i) ↔
      leDecode (readAt buf2 (size * i) size) =
        leDecode (readAt buf1 (size * i) size) % 2 ^ bits := by
  have kept : 2 ^ bits ≤ 2 ^ (8 * size) := Nat.pow_le_pow_right (by decide) fits
  have positive : 0 < 2 ^ bits := Nat.two_pow_pos bits
  have masked : ((mask bits).setWidth (8 * size)).toNat = 2 ^ bits - 1 := by
    rw [BitVec.toNat_setWidth, mask_toNat high]
    exact Nat.mod_eq_of_lt (by omega)
  rw [maskedWord, promote_and, promote_inj (by omega), ← BitVec.toNat_inj, BitVec.toNat_and,
    masked, Nat.and_two_pow_sub_one_eq_mod, wordAt_toNat, wordAt_toNat]
  exact eq_comm

end Words

section Verdict
variable {signedChar : Bool} {bits : Nat} {buf1 buf2 : Buffer}

theorem pass_result (verdict : Verdict) (lines : List (Option Corrupted)) :
    (lines.foldl Verdict.pass verdict).result = 0 ↔
      verdict.result = 0 ∧ ∀ line ∈ lines, line = none := by
  induction lines generalizing verdict with
  | nil => simp
  | cons line rest ih =>
      rw [List.foldl_cons, ih, List.forall_mem_cons]
      cases line with
      | none => simp [Verdict.pass]
      | some corrupted => simp [Verdict.pass]

theorem compareWord_none (high : bits ≤ 31) (i : Nat) :
    compareWord signedChar bits buf1 buf2 i = none ↔
      leDecode (readAt buf2 (wordSize bits * i) (wordSize bits)) =
        leDecode (readAt buf1 (wordSize bits * i) (wordSize bits)) % 2 ^ bits := by
  unfold compareWord
  by_cases wide : 16 < bits
  · have size : wordSize bits = 4 := by rw [wordSize, if_neg (by omega), if_neg (by omega)]
    rw [if_pos wide, size, ← maskedWord_eq_iff (by omega) (by omega) high true]
    simp
  · rw [if_neg wide]
    by_cases half : 8 < bits
    · have size : wordSize bits = 2 := by rw [wordSize, if_neg (by omega), if_pos (by omega)]
      rw [if_pos half, size, ← maskedWord_eq_iff (by omega) (by omega) high true]
      simp
    · have size : wordSize bits = 1 := by rw [wordSize, if_pos (by omega)]
      rw [if_neg half, size, ← maskedWord_eq_iff (by omega) (by omega) high signedChar]
      simp

theorem wordSize_pos (bits : Nat) : 0 < wordSize bits := by
  unfold wordSize
  split_ifs <;> decide

theorem wordSize_dvd_limit (bits : Nat) : wordSize bits ∣ limit bits := by
  unfold wordSize limit
  split_ifs <;> decide

theorem wordCount_eq (bits count : Nat) : wordCount bits count = count / wordSize bits := by
  unfold wordCount wordSize
  split_ifs <;> omega

/-- The verdict is about the complete words. -/
theorem checkDataIntegrity_result (high : bits ≤ 31) (count : Nat) :
    (checkDataIntegrity signedChar bits buf1 buf2 count).result = 0 ↔
      ∀ i < count / wordSize bits, WordReceived bits count buf1 buf2 i := by
  rw [checkDataIntegrity, pass_result, and_iff_right rfl, wordCount_eq]
  simp only [List.mem_map, List.mem_range, forall_exists_index, and_imp, forall_apply_eq_imp_iff₂]
  refine forall₂_congr fun i inside => ?_
  have complete : wordSize bits * i + wordSize bits ≤ count := by
    have room := (Nat.le_div_iff_mul_le (wordSize_pos bits)).mp (Nat.succ_le_of_lt inside)
    rwa [Nat.succ_mul, Nat.mul_comm] at room
  rw [compareWord_none high, WordReceived, partValue, partValue, Nat.min_eq_left (by omega)]

end Verdict

section Length
variable (t : Transfer)

theorem transferLength_iff :
    transferLength t.bits t.bytes = min t.bytes (limit t.bits) ↔ InClamp t := by
  unfold transferLength InClamp limit bufMaxSize
  split_ifs <;> omega

theorem forall_words_iff {size : Nat} (positive : 0 < size) (len : Nat) (word : Nat → Prop) :
    (∀ i, size * i < len → word i) ↔
      (∀ i < len / size, word i) ∧ (¬ size ∣ len → word (len / size)) := by
  have parts := Nat.div_add_mod len size
  constructor
  · intro every
    refine ⟨fun i inside => ?_, fun incomplete => ?_⟩
    · have room := (Nat.le_div_iff_mul_le positive).mp (Nat.succ_le_of_lt inside)
      rw [Nat.succ_mul, Nat.mul_comm] at room
      exact every i (by omega)
    · have left := Nat.pos_of_ne_zero (mt Nat.dvd_of_mod_eq_zero incomplete)
      exact every _ (by omega)
  · rintro ⟨complete, last⟩ i inside
    have upto : i ≤ len / size := by
      rw [Nat.le_div_iff_mul_le positive, Nat.mul_comm]
      exact inside.le
    rcases upto.lt_or_eq with before | rfl
    · exact complete i before
    · refine last fun whole => ?_
      have none_left := Nat.mod_eq_zero_of_dvd whole
      omega

theorem main_transfer {args : List Text} {test : BufferTest} (started : main args = .ok test)
    (low : 1 ≤ test.options.bitsPerWord) (high : test.options.bitsPerWord ≤ 31) :
    ∃ t : Transfer, t.bits = test.options.bitsPerWord ∧
      test.len = transferLength t.bits t.bytes ∧ test.buffer = sendBuffer t.value := by
  unfold main at started
  cases last : args.getLast? with
  | none => rw [last] at started; cases started
  | some value =>
      rw [last] at started
      obtain ⟨options, -, kept⟩ := Exits.bind_eq_ok started
      by_cases short : value.length < 1
      · rw [if_pos short] at kept
        cases kept
      · rw [if_neg short] at kept
        cases kept
        have nonempty : bytesOf value ≠ [] :=
          fun none_left => short (by simp [List.map_eq_nil_iff.mp none_left])
        refine ⟨⟨_, low, high, bytesOf value, nonempty⟩, rfl, ?_, rfl⟩
        exact congrArg (transferLength options.bitsPerWord) (List.length_map _).symm

end Length

section Judges
variable {signedChar : Bool} {t : Transfer} {received : Buffer}

/-- The verdict is about each word when an incomplete last one is right where the others are. -/
theorem verdict_iff (count : Nat) :
    ((checkDataIntegrity signedChar t.bits (sendBuffer t.value) received count).result = 0 ↔
      ∀ i, wordSize t.bits * i < count →
        WordReceived t.bits count (sendBuffer t.value) received i) ↔
    ((∀ i < count / wordSize t.bits,
        WordReceived t.bits count (sendBuffer t.value) received i) →
      ¬ wordSize t.bits ∣ count →
        WordReceived t.bits count (sendBuffer t.value) received (count / wordSize t.bits)) := by
  rw [checkDataIntegrity_result t.high, forall_words_iff (wordSize_pos t.bits)]
  exact iff_self_and

theorem clear_of_covers (covers : Covers signedChar t received) :
    InClamp t ∧ ¬ OnlyLastWrong t received := by
  obtain ⟨length, judged⟩ := covers
  refine ⟨(transferLength_iff t).mp length, fun last => ?_⟩
  rw [verdict_iff, length, Nat.min_eq_left last.short.le] at judged
  exact last.wrong (judged last.others last.incomplete)

theorem covers_of_clear (inClamp : InClamp t) (clear : ¬ OnlyLastWrong t received) :
    Covers signedChar t received := by
  have length := (transferLength_iff t).mpr inClamp
  refine ⟨length, (verdict_iff _).mpr ?_⟩
  rw [length]
  intro complete incomplete
  by_cases short : t.bytes < limit t.bits
  · rw [Nat.min_eq_left short.le] at complete incomplete ⊢
    by_contra wrong
    exact clear ⟨short, incomplete, wrong, complete⟩
  · rw [Nat.min_eq_right (by omega)] at incomplete
    exact absurd (wordSize_dvd_limit t.bits) incomplete

end Judges

/-- The test keeps the documented length and judges each word of it just when the value is
clear of the wrong branches and its incomplete word is not the only one that is wrong. -/
theorem covers_iff (signedChar : Bool) (t : Transfer) (received : Buffer) :
    Covers signedChar t received ↔ InClamp t ∧ ¬ OnlyLastWrong t received :=
  ⟨clear_of_covers, fun clear => covers_of_clear clear.1 clear.2⟩

/-- Every test that `main` starts with one of the word sizes is judged so. -/
theorem main_covers_iff {args : List Text} {test : BufferTest} (started : main args = .ok test)
    (low : 1 ≤ test.options.bitsPerWord) (high : test.options.bitsPerWord ≤ 31)
    (signedChar : Bool) (received : Buffer) :
    ∃ t : Transfer, t.bits = test.options.bitsPerWord ∧
      test.len = transferLength t.bits t.bytes ∧ test.buffer = sendBuffer t.value ∧
      (Covers signedChar t received ↔ InClamp t ∧ ¬ OnlyLastWrong t received) := by
  obtain ⟨t, bits, len, buffer⟩ := main_transfer started low high
  exact ⟨t, bits, len, buffer, clear_of_covers, fun clear => covers_of_clear clear.1 clear.2⟩

example : transferLength 8 2000 = 1024 := by decide

/-- Two bytes as a word of 32 bits: nothing is compared. -/
def twoBytes : Transfer :=
  ⟨17, by decide, by decide, [1, 2], by decide⟩

theorem incomplete_word_passes : ¬ Covers false twoBytes fun _ => 0 := by
  rintro ⟨-, verdict⟩
  have received := verdict.mp rfl 0 (by decide)
  exact absurd received (by decide +kernel)

end ImxTest.Spi
