import Mathlib.Data.List.Basic
import Mathlib.Tactic.IntervalCases
import ImxTest.Lib.XorLinear

/-!
# The frame checksum of the display integrity checker

`mxc_dcic_test.c` computes the CRC-32 that the hardware computes over a region of
the screen.  One word of the bus is 24 bits wide and `crc32_calc_single_24bit`
takes it in one step, by an equation for every bit of the new value.  Four loops
feed it, for 24 or 16 bits per pixel and a bus of 24 or 18 bits.

The reference takes the bits of a word one after the other.
-/

set_option autoImplicit false

namespace ImxTest.Dcic

open ImxTest.Lib.XorLinear

abbrev Word : Type := BitVec 32

abbrev Pixel16 : Type := BitVec 16

/-! ## One word of the bus -/

def getBit (d : Word) (i : Nat) : Word :=
  (d >>> i) &&& 1

def setBit (d : Word) (i : Nat) (b : Word) : Word :=
  d ||| (b <<< i)

/-- A bit of `C`, the old value, or of `D`, the data. -/
inductive Tap where
  | c (i : Nat)
  | d (i : Nat)
  deriving DecidableEq, Repr

def Tap.bit (C D : Word) : Tap → Word
  | .c i => getBit C i
  | .d i => getBit D i

def xorTaps (C D : Word) : List Tap → Word
  | [] => 0
  | tap :: rest => tap.bit C D ^^^ xorTaps C D rest

def equations : List (List Tap) := [
  [.d 16, .d 12, .d 10, .d 9, .d 6, .d 0, .c 8, .c 14, .c 17, .c 18, .c 20, .c 24],
  [.d 17, .d 16, .d 13, .d 12, .d 11, .d 9, .d 7, .d 6, .d 1, .d 0, .c 8, .c 9, .c 14, .c 15, .c
    17, .c 19, .c 20, .c 21, .c 24, .c 25],
  [.d 18, .d 17, .d 16, .d 14, .d 13, .d 9, .d 8, .d 7, .d 6, .d 2, .d 1, .d 0, .c 8, .c 9, .c
    10, .c 14, .c 15, .c 16, .c 17, .c 21, .c 22, .c 24, .c 25, .c 26],
  [.d 19, .d 18, .d 17, .d 15, .d 14, .d 10, .d 9, .d 8, .d 7, .d 3, .d 2, .d 1, .c 9, .c 10, .c
    11, .c 15, .c 16, .c 17, .c 18, .c 22, .c 23, .c 25, .c 26, .c 27],
  [.d 20, .d 19, .d 18, .d 15, .d 12, .d 11, .d 8, .d 6, .d 4, .d 3, .d 2, .d 0, .c 8, .c 10, .c
    11, .c 12, .c 14, .c 16, .c 19, .c 20, .c 23, .c 26, .c 27, .c 28],
  [.d 21, .d 20, .d 19, .d 13, .d 10, .d 7, .d 6, .d 5, .d 4, .d 3, .d 1, .d 0, .c 8, .c 9, .c
    11, .c 12, .c 13, .c 14, .c 15, .c 18, .c 21, .c 27, .c 28, .c 29],
  [.d 22, .d 21, .d 20, .d 14, .d 11, .d 8, .d 7, .d 6, .d 5, .d 4, .d 2, .d 1, .c 9, .c 10, .c
    12, .c 13, .c 14, .c 15, .c 16, .c 19, .c 22, .c 28, .c 29, .c 30],
  [.d 23, .d 22, .d 21, .d 16, .d 15, .d 10, .d 8, .d 7, .d 5, .d 3, .d 2, .d 0, .c 8, .c 10, .c
    11, .c 13, .c 15, .c 16, .c 18, .c 23, .c 24, .c 29, .c 30, .c 31],
  [.d 23, .d 22, .d 17, .d 12, .d 11, .d 10, .d 8, .d 4, .d 3, .d 1, .d 0, .c 8, .c 9, .c 11, .c
    12, .c 16, .c 18, .c 19, .c 20, .c 25, .c 30, .c 31],
  [.d 23, .d 18, .d 13, .d 12, .d 11, .d 9, .d 5, .d 4, .d 2, .d 1, .c 9, .c 10, .c 12, .c 13,
    .c 17, .c 19, .c 20, .c 21, .c 26, .c 31],
  [.d 19, .d 16, .d 14, .d 13, .d 9, .d 5, .d 3, .d 2, .d 0, .c 8, .c 10, .c 11, .c 13, .c 17,
    .c 21, .c 22, .c 24, .c 27],
  [.d 20, .d 17, .d 16, .d 15, .d 14, .d 12, .d 9, .d 4, .d 3, .d 1, .d 0, .c 8, .c 9, .c 11, .c
    12, .c 17, .c 20, .c 22, .c 23, .c 24, .c 25, .c 28],
  [.d 21, .d 18, .d 17, .d 15, .d 13, .d 12, .d 9, .d 6, .d 5, .d 4, .d 2, .d 1, .d 0, .c 8, .c
    9, .c 10, .c 12, .c 13, .c 14, .c 17, .c 20, .c 21, .c 23, .c 25, .c 26, .c 29],
  [.d 22, .d 19, .d 18, .d 16, .d 14, .d 13, .d 10, .d 7, .d 6, .d 5, .d 3, .d 2, .d 1, .c 9, .c
    10, .c 11, .c 13, .c 14, .c 15, .c 18, .c 21, .c 22, .c 24, .c 26, .c 27, .c 30],
  [.d 23, .d 20, .d 19, .d 17, .d 15, .d 14, .d 11, .d 8, .d 7, .d 6, .d 4, .d 3, .d 2, .c 10,
    .c 11, .c 12, .c 14, .c 15, .c 16, .c 19, .c 22, .c 23, .c 25, .c 27, .c 28, .c 31],
  [.d 21, .d 20, .d 18, .d 16, .d 15, .d 12, .d 9, .d 8, .d 7, .d 5, .d 4, .d 3, .c 11, .c 12,
    .c 13, .c 15, .c 16, .c 17, .c 20, .c 23, .c 24, .c 26, .c 28, .c 29],
  [.d 22, .d 21, .d 19, .d 17, .d 13, .d 12, .d 8, .d 5, .d 4, .d 0, .c 8, .c 12, .c 13, .c 16,
    .c 20, .c 21, .c 25, .c 27, .c 29, .c 30],
  [.d 23, .d 22, .d 20, .d 18, .d 14, .d 13, .d 9, .d 6, .d 5, .d 1, .c 9, .c 13, .c 14, .c 17,
    .c 21, .c 22, .c 26, .c 28, .c 30, .c 31],
  [.d 23, .d 21, .d 19, .d 15, .d 14, .d 10, .d 7, .d 6, .d 2, .c 10, .c 14, .c 15, .c 18, .c
    22, .c 23, .c 27, .c 29, .c 31],
  [.d 22, .d 20, .d 16, .d 15, .d 11, .d 8, .d 7, .d 3, .c 11, .c 15, .c 16, .c 19, .c 23, .c
    24, .c 28, .c 30],
  [.d 23, .d 21, .d 17, .d 16, .d 12, .d 9, .d 8, .d 4, .c 12, .c 16, .c 17, .c 20, .c 24, .c
    25, .c 29, .c 31],
  [.d 22, .d 18, .d 17, .d 13, .d 10, .d 9, .d 5, .c 13, .c 17, .c 18, .c 21, .c 25, .c 26, .c
    30],
  [.d 23, .d 19, .d 18, .d 16, .d 14, .d 12, .d 11, .d 9, .d 0, .c 8, .c 17, .c 19, .c 20, .c
    22, .c 24, .c 26, .c 27, .c 31],
  [.d 20, .d 19, .d 17, .d 16, .d 15, .d 13, .d 9, .d 6, .d 1, .d 0, .c 8, .c 9, .c 14, .c 17,
    .c 21, .c 23, .c 24, .c 25, .c 27, .c 28],
  [.d 21, .d 20, .d 18, .d 17, .d 16, .d 14, .d 10, .d 7, .d 2, .d 1, .c 0, .c 9, .c 10, .c 15,
    .c 18, .c 22, .c 24, .c 25, .c 26, .c 28, .c 29],
  [.d 22, .d 21, .d 19, .d 18, .d 17, .d 15, .d 11, .d 8, .d 3, .d 2, .c 1, .c 10, .c 11, .c 16,
    .c 19, .c 23, .c 25, .c 26, .c 27, .c 29, .c 30],
  [.d 23, .d 22, .d 20, .d 19, .d 18, .d 10, .d 6, .d 4, .d 3, .d 0, .c 2, .c 8, .c 11, .c 12,
    .c 14, .c 18, .c 26, .c 27, .c 28, .c 30, .c 31],
  [.d 23, .d 21, .d 20, .d 19, .d 11, .d 7, .d 5, .d 4, .d 1, .c 3, .c 9, .c 12, .c 13, .c 15,
    .c 19, .c 27, .c 28, .c 29, .c 31],
  [.d 22, .d 21, .d 20, .d 12, .d 8, .d 6, .d 5, .d 2, .c 4, .c 10, .c 13, .c 14, .c 16, .c 20,
    .c 28, .c 29, .c 30],
  [.d 23, .d 22, .d 21, .d 13, .d 9, .d 7, .d 6, .d 3, .c 5, .c 11, .c 14, .c 15, .c 17, .c 21,
    .c 29, .c 30, .c 31],
  [.d 23, .d 22, .d 14, .d 10, .d 8, .d 7, .d 4, .c 6, .c 12, .c 15, .c 16, .c 18, .c 22, .c 30,
    .c 31],
  [.d 23, .d 15, .d 11, .d 9, .d 8, .d 5, .c 7, .c 13, .c 16, .c 17, .c 19, .c 23, .c 31]]

/-- The assignments `crc_out = SET_BIT(crc_out, i, ..)` from bit `i` on. -/
def setBits (C D : Word) : List (List Tap) → Nat → Word → Word
  | [], _, crcOut => crcOut
  | taps :: rest, i, crcOut => setBits C D rest (i + 1) (setBit crcOut i (xorTaps C D taps))

def crc32CalcSingle24bit (crcIn dataIn : Word) : Word :=
  setBits crcIn dataIn equations 0 0

/-! ## The four loops -/

/-- The first word is taken before the loop and the others in it.  `bus` is what a pixel
puts on the bus. -/
def crcLoop {Pixel : Type} (bus : Pixel → Word) (crcInit : Word) (first : Pixel)
    (others : List Pixel) : Word :=
  others.foldl (fun crcOut pixel => crc32CalcSingle24bit crcOut (bus pixel))
    (crc32CalcSingle24bit crcInit (bus first))

def crc32Calc24bit (crcInit : Word) (first : Word) (others : List Word) : Word :=
  crcLoop id crcInit first others

def data18b (pixel : Word) : Word :=
  ((pixel &&& 0xFC0000) >>> 6) ||| ((pixel &&& 0xFC00) >>> 4) ||| ((pixel &&& 0xFC) >>> 2)

def crc32Calc18of24bit (crcInit : Word) (first : Word) (others : List Word) : Word :=
  crcLoop data18b crcInit first others

def data24of16 (pixel : Pixel16) : Word :=
  let data16b : Word := pixel.setWidth 32
  ((data16b &&& 0xF800) <<< 8) ||| ((data16b &&& 0xE000) <<< 3) |||
    ((data16b &&& 0x7E0) <<< 5) ||| ((data16b &&& 0x600) >>> 1) |||
    ((data16b &&& 0x1F) <<< 3) ||| ((data16b &&& 0x1C) >>> 2)

def crc32Calc24of16bit (crcInit : Word) (first : Pixel16) (others : List Pixel16) : Word :=
  crcLoop data24of16 crcInit first others

def data18of16 (pixel : Pixel16) : Word :=
  let data16b : Word := pixel.setWidth 32
  ((data16b &&& 0xF800) <<< 2) ||| ((data16b &&& 0x8000) >>> 3) |||
    ((data16b &&& 0x7E0) <<< 1) |||
    ((data16b &&& 0x1F) <<< 1) ||| ((data16b &&& 0x10) >>> 4)

def crc32Calc18of16bit (crcInit : Word) (first : Pixel16) (others : List Pixel16) : Word :=
  crcLoop data18of16 crcInit first others

/-! ## The bit-serial checksum -/

def polynomial : Word := 0x04C11DB7

/-- One bit is shifted in at the lower end. -/
def crcBit (crc : Word) (bit : Bool) : Word :=
  if crc.msb ^^ bit then (crc <<< 1) ^^^ polynomial else crc <<< 1

/-- The bits of a word of the bus, the most significant one first. -/
def busBits (data : BitVec 24) : List Bool :=
  (List.range 24).map data.getMsbD

def crcWord (crc : Word) (data : BitVec 24) : Word :=
  (busBits data).foldl crcBit crc

def serialCrc (crcInit : Word) (words : List (BitVec 24)) : Word :=
  words.foldl crcWord crcInit

/-! ## The bits taken one after the other -/

theorem crcBit_eq (crc : Word) (bit : Bool) :
    crcBit crc bit = crc <<< 1 ^^^ bif crc.msb ^^ bit then polynomial else 0#32 := by
  unfold crcBit
  cases crc.msb ^^ bit with
  | true => rfl
  | false => exact BitVec.xor_zero.symm

theorem crcBit_linear (crc crc' : Word) (bit bit' : Bool) :
    crcBit (crc ^^^ crc') (bit ^^ bit') = crcBit crc bit ^^^ crcBit crc' bit' := by
  have feedback : ∀ one other : Bool, (bif one ^^ other then polynomial else 0#32) =
      (bif one then polynomial else 0#32) ^^^ bif other then polynomial else 0#32 := by
    decide
  have bits : ((crc ^^^ crc').msb ^^ (bit ^^ bit')) = ((crc.msb ^^ bit) ^^ (crc'.msb ^^ bit')) := by
    rw [BitVec.msb_xor, Bool.xor_assoc, Bool.xor_assoc, Bool.xor_left_comm bit]
  rw [crcBit_eq, crcBit_eq, crcBit_eq, bits, feedback, BitVec.shiftLeft_xor_distrib]
  ac_rfl

theorem foldl_crcBit_linear (bits bits' : List Bool) (same : bits.length = bits'.length) :
    ∀ crc crc' : Word, (List.zipWith xor bits bits').foldl crcBit (crc ^^^ crc') =
      bits.foldl crcBit crc ^^^ bits'.foldl crcBit crc' := by
  induction bits generalizing bits' with
  | nil =>
      intro crc crc'
      rw [List.length_eq_zero_iff.mp same.symm]
      rfl
  | cons bit rest ih =>
      intro crc crc'
      cases bits' with
      | nil => cases same
      | cons bit' rest' =>
          simp only [List.zipWith_cons_cons, List.foldl_cons, crcBit_linear]
          exact ih rest' (Nat.succ.inj same) _ _

theorem busBits_xor (data data' : BitVec 24) :
    busBits (data ^^^ data') = List.zipWith xor (busBits data) (busBits data') := by
  simp [busBits, List.zipWith_map, List.zipWith_self]

theorem crcWord_linear : Linear₂ crcWord := by
  intro crc crc' data data'
  unfold crcWord
  rw [busBits_xor]
  exact foldl_crcBit_linear _ _ (by simp [busBits]) crc crc'

/-! ## The equations -/

theorem getBit_linear (d d' : Word) (i : Nat) :
    getBit (d ^^^ d') i = getBit d i ^^^ getBit d' i := by
  unfold getBit
  apply BitVec.eq_of_getLsbD_eq
  intro j _
  simp only [BitVec.getLsbD_and, BitVec.getLsbD_xor, BitVec.getLsbD_ushiftRight]
  exact Bool.and_xor_distrib_right ..

theorem xorTaps_linear (C C' D D' : Word) (taps : List Tap) :
    xorTaps (C ^^^ C') (D ^^^ D') taps = xorTaps C D taps ^^^ xorTaps C' D' taps := by
  induction taps with
  | nil => exact BitVec.xor_self.symm
  | cons tap rest ih =>
      have bits : tap.bit (C ^^^ C') (D ^^^ D') = tap.bit C D ^^^ tap.bit C' D' := by
        cases tap with
        | c i => exact getBit_linear C C' i
        | d i => exact getBit_linear D D' i
      simp only [xorTaps, bits, ih]
      ac_rfl

theorem getBit_below (d : Word) (i : Nat) : Below 1 (getBit d i) := by
  intro j above
  have one : (1#32).getLsbD j = false := by
    rw [BitVec.getLsbD_one]
    simp
    omega
  unfold getBit
  rw [BitVec.getLsbD_and]
  simp [one]

theorem xorTaps_below (C D : Word) (taps : List Tap) : Below 1 (xorTaps C D taps) := by
  induction taps with
  | nil => exact fun j _ => BitVec.getLsbD_zero
  | cons tap rest ih =>
      intro j above
      have bit : (tap.bit C D).getLsbD j = false := by
        cases tap with
        | c i => exact getBit_below C i j above
        | d i => exact getBit_below D i j above
      rw [xorTaps, BitVec.getLsbD_xor, bit, ih j above]
      rfl

/-- A bit is set where all bits are clear, so that `|` is exclusive or there. -/
theorem setBit_eq {d b : Word} {i : Nat} (belowD : Below i d) : setBit d i b = d ^^^ b <<< i := by
  unfold setBit
  apply BitVec.eq_of_getLsbD_eq
  intro j _
  rw [BitVec.getLsbD_or, BitVec.getLsbD_xor, BitVec.getLsbD_shiftLeft]
  by_cases under : j < i
  · simp [under]
  · rw [belowD j (by omega)]
    simp

theorem setBit_below {d b : Word} {i : Nat} (belowD : Below i d) (belowB : Below 1 b) :
    Below (i + 1) (setBit d i b) := by
  intro j above
  unfold setBit
  rw [BitVec.getLsbD_or, BitVec.getLsbD_shiftLeft, belowD j (by omega),
    belowB (j - i) (by omega)]
  simp

theorem setBits_linear (C C' D D' : Word) (equations : List (List Tap)) :
    ∀ (i : Nat) (crcOut crcOut' : Word), Below i crcOut → Below i crcOut' →
      setBits (C ^^^ C') (D ^^^ D') equations i (crcOut ^^^ crcOut') =
        setBits C D equations i crcOut ^^^ setBits C' D' equations i crcOut' := by
  induction equations with
  | nil =>
      intro i crcOut crcOut' _ _
      rfl
  | cons taps rest ih =>
      intro i crcOut crcOut' below below'
      have both : Below i (crcOut ^^^ crcOut') := by
        intro j above
        rw [BitVec.getLsbD_xor, below j above, below' j above]
        rfl
      have bit : setBit (crcOut ^^^ crcOut') i (xorTaps (C ^^^ C') (D ^^^ D') taps) =
          setBit crcOut i (xorTaps C D taps) ^^^ setBit crcOut' i (xorTaps C' D' taps) := by
        rw [setBit_eq both, setBit_eq below, setBit_eq below', xorTaps_linear,
          BitVec.shiftLeft_xor_distrib]
        ac_rfl
      simp only [setBits, bit]
      exact ih (i + 1) _ _ (setBit_below below (xorTaps_below C D taps))
        (setBit_below below' (xorTaps_below C' D' taps))

theorem crc32CalcSingle24bit_linear : Linear₂ crc32CalcSingle24bit := by
  intro C C' D D'
  exact setBits_linear C C' D D' equations 0 0 0 (fun j _ => BitVec.getLsbD_zero)
    (fun j _ => BitVec.getLsbD_zero)

/-- On each of the words with a single bit the equations give what the bits give. -/
theorem crc32CalcSingle24bit_eq (crcIn dataIn : Word) :
    crc32CalcSingle24bit crcIn dataIn = crcWord crcIn (dataIn.setWidth 24) := by
  have linear : Linear₂ fun crc (data : Word) => crcWord crc (data.setWidth 24) := by
    intro crc crc' data data'
    simp only [BitVec.setWidth_xor]
    exact crcWord_linear crc crc' _ _
  refine crc32CalcSingle24bit_linear.ext linear ?_ ?_ crcIn dataIn
  · decide +kernel
  · decide +kernel

theorem crc32Calc24bit_eq_serial (crcInit first : Word) (others : List Word) :
    crc32Calc24bit crcInit first others =
      serialCrc crcInit ((first :: others).map (BitVec.setWidth 24)) := by
  have step : crc32CalcSingle24bit = fun crc (data : Word) => crcWord crc (data.setWidth 24) := by
    funext crc data
    exact crc32CalcSingle24bit_eq crc data
  rw [crc32Calc24bit, crcLoop, serialCrc, List.foldl_map, step]
  rfl

/-! ## The pixels of 16 bits -/

/-- A component of 5 bits on 8, the upper bits once more below. -/
def replicate5 (component : BitVec 5) : BitVec 8 :=
  component.setWidth 8 <<< 3 ||| component.setWidth 8 >>> 2

def replicate6 (component : BitVec 6) : BitVec 8 :=
  component.setWidth 8 <<< 2 ||| component.setWidth 8 >>> 4

/-- The pixel of 24 bits for one of 5, 6 and 5. -/
def expand (pixel : Pixel16) : Word :=
  (replicate5 (pixel.extractLsb' 11 5) ++ replicate6 (pixel.extractLsb' 5 6) ++
    replicate5 (pixel.extractLsb' 0 5)).setWidth 32

theorem data24of16_eq_expand (pixel : Pixel16) : data24of16 pixel = expand pixel := by
  apply BitVec.eq_of_getLsbD_eq
  intro i inside
  simp only [data24of16, expand, replicate5, replicate6, BitVec.getLsbD_or, BitVec.getLsbD_and,
    BitVec.getLsbD_shiftLeft, BitVec.getLsbD_ushiftRight, BitVec.getLsbD_setWidth,
    BitVec.getLsbD_append, BitVec.getLsbD_extractLsb']
  interval_cases i <;> simp

theorem data18of16_eq_expand (pixel : Pixel16) : data18of16 pixel = data18b (expand pixel) := by
  apply BitVec.eq_of_getLsbD_eq
  intro i inside
  simp only [data18of16, data18b, expand, replicate5, replicate6, BitVec.getLsbD_or,
    BitVec.getLsbD_and, BitVec.getLsbD_shiftLeft, BitVec.getLsbD_ushiftRight,
    BitVec.getLsbD_setWidth, BitVec.getLsbD_append, BitVec.getLsbD_extractLsb']
  interval_cases i <;> simp

theorem crcLoop_map {Pixel Other : Type} (bus : Other → Word) (f : Pixel → Other) (crcInit : Word)
    (first : Pixel) (others : List Pixel) :
    crcLoop bus crcInit (f first) (others.map f) =
      crcLoop (fun pixel => bus (f pixel)) crcInit first others := by
  rw [crcLoop, List.foldl_map]
  rfl

/-- On either bus a pixel of 16 bits counts as the pixel of 24 that it expands to. -/
theorem pixels16_eq_expanded (crcInit : Word) (first : Pixel16) (others : List Pixel16) :
    crc32Calc24of16bit crcInit first others =
        crc32Calc24bit crcInit (expand first) (others.map expand) ∧
      crc32Calc18of16bit crcInit first others =
        crc32Calc18of24bit crcInit (expand first) (others.map expand) := by
  have wide : data24of16 = fun pixel => id (expand pixel) := funext data24of16_eq_expand
  have narrow : data18of16 = fun pixel => data18b (expand pixel) := funext data18of16_eq_expand
  constructor
  · rw [crc32Calc24of16bit, crc32Calc24bit, crcLoop_map, wide]
  · rw [crc32Calc18of16bit, crc32Calc18of24bit, crcLoop_map, narrow]

end ImxTest.Dcic
