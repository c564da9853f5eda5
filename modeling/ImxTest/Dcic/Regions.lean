import ImxTest.Dcic.Crc
import ImxTest.Lib.ByteMem
import ImxTest.Lib.LittleEndian
import ImxTest.Lib.ShiftRegister
import Mathlib.Tactic.Ring

/-!
# The regions of the screen that the test has checked

`roi_config` fills three rectangles of the framebuffer with one byte and gives the
hardware the checksum of what it has filled in.  The hardware compares it with the
checksum of what goes over the bus, pixel by pixel and row by row; `Checked` says what the
checksums are for.

Sizes are those of a screen that is mapped, and do not overflow.
-/

set_option autoImplicit false

namespace ImxTest.Dcic

open ImxTest.Lib.ByteMem
open ImxTest.Lib.LittleEndian
open ImxTest.Lib.ShiftRegister

abbrev Byte : Type := UInt8

/-! ## The test -/

/-- The fields of `struct fb_var_screeninfo` that place a pixel. -/
structure Screen where
  bitsPerPixel : Nat
  xresVirtual : Nat
  deriving DecidableEq, Repr

/-- A rectangle, with its last column and row.  The test takes one from its options without a
look at the order; it would then read behind its buffer. -/
structure Rect where
  startX : Nat
  startY : Nat
  endX : Nat
  endY : Nat
  ordered : startX ≤ endX ∧ startY ≤ endY
  deriving DecidableEq, Repr

structure Settings where
  showData : Nat
  dispBusWidth : Nat
  offsets : Rect
  deriving DecidableEq, Repr

/-- `struct roi_params` as the driver gets it; `refSig` is `none` where the test leaves it
unset. -/
structure RoiParams where
  roiN : Nat
  rect : Rect
  refSig : Option Word
  deriving DecidableEq, Repr

def Screen.bppBytes (screen : Screen) : Nat := if screen.bitsPerPixel = 16 then 2 else 4

def words (k : Nat) (bytes : List Byte) : List Nat :=
  (List.range (bytes.length / k)).map fun i => leDecode ((bytes.drop (i * k)).take k)

def refSig (screen : Screen) (dispBusWidth : Nat) (bytes : List Byte) : Option Word :=
  match words screen.bppBytes bytes with
  | [] => none
  | first :: others =>
      if screen.bitsPerPixel = 16 then
        if dispBusWidth = 24 then
          some (crc32Calc24of16bit 0 (.ofNat 16 first) (others.map (.ofNat 16)))
        else if dispBusWidth = 18 then
          some (crc32Calc18of16bit 0 (.ofNat 16 first) (others.map (.ofNat 16)))
        else none
      else if dispBusWidth = 24 then
        some (crc32Calc24bit 0 (.ofNat 32 first) (others.map (.ofNat 32)))
      else if dispBusWidth = 18 then
        some (crc32Calc18of24bit 0 (.ofNat 32 first) (others.map (.ofNat 32)))
      else none

def Rect.width (rect : Rect) : Nat := rect.endX - rect.startX + 1

def Rect.height (rect : Rect) : Nat := rect.endY - rect.startY + 1

def lineLen (screen : Screen) (rect : Rect) : Nat := rect.width * screen.bppBytes

def rowOffset (screen : Screen) (rect : Rect) (i : Nat) : Nat :=
  ((rect.startY + i) * screen.xresVirtual + rect.startX) * screen.bppBytes

def copyRows (screen : Screen) (rect : Rect) (pbuf : List Byte) (fb : Nat → Byte) :
    Nat → Byte :=
  (List.range rect.height).foldl (fun fb i =>
    writeAt fb (rowOffset screen rect i)
      ((pbuf.drop (i * lineLen screen rect)).take (lineLen screen rect))) fb

def roiFbInit (settings : Settings) (screen : Screen) (fb : Nat → Byte) (roiN : Nat)
    (rect : Rect) : (Nat → Byte) × RoiParams :=
  let pbuf := List.replicate (rect.width * rect.height * screen.bppBytes)
    (UInt8.ofNat settings.showData)
  (copyRows screen rect pbuf fb, ⟨roiN, rect, refSig screen settings.dispBusWidth pbuf⟩)

/-- `roi_config` up to the question for the result: the framebuffer, and what the driver
was given. -/
def roiConfig (settings : Settings) (screen : Screen) (fb : Nat → Byte) :
    (Nat → Byte) × List RoiParams :=
  let (fb, first) := roiFbInit settings screen fb 1 settings.offsets
  let (fb, second) := roiFbInit settings screen fb 3 ⟨250, 250, 360, 360, by decide⟩
  let (fb, third) := roiFbInit settings screen fb 5 ⟨400, 400, 450, 450, by decide⟩
  (fb, [first, second, third])

/-! ## What is shown -/

/-- The bytes of the pixel in column `x` of line `y`.  A line of the framebuffer has
`xresVirtual` pixels. -/
def Screen.pixel (screen : Screen) (fb : Nat → Byte) (x y : Nat) : List Byte :=
  readAt fb (y * (screen.bppBytes * screen.xresVirtual) + screen.bppBytes * x) screen.bppBytes

/-- The bytes of a rectangle, pixel by pixel and line by line. -/
def Rect.bytes (screen : Screen) (rect : Rect) (fb : Nat → Byte) : List Byte :=
  (List.range rect.height).flatMap fun i =>
    (List.range rect.width).flatMap fun j =>
      screen.pixel fb (rect.startX + j) (rect.startY + i)

def busWord (screen : Screen) (dispBusWidth : Nat) (word : Nat) : BitVec 24 :=
  if screen.bitsPerPixel = 16 then
    if dispBusWidth = 24 then (data24of16 (.ofNat 16 word)).setWidth 24
    else (data18of16 (.ofNat 16 word)).setWidth 24
  else if dispBusWidth = 24 then (BitVec.ofNat 32 word).setWidth 24
  else (data18b (.ofNat 32 word)).setWidth 24

def busStream (screen : Screen) (dispBusWidth : Nat) (bytes : List Byte) : List Bool :=
  (words screen.bppBytes bytes).flatMap fun word =>
    busBits (busWord screen dispBusWidth word)

/-- The checksum of a rectangle as it is in `fb`, and the pictures that it tells from it. -/
structure Checked (settings : Settings) (screen : Screen) (fb : Nat → Byte)
    (roi : RoiParams) : Prop where
  intact : refSig screen settings.dispBusWidth (roi.rect.bytes screen fb) = roi.refSig
  /-- Wrong bits of the bus are noticed when they are at most 32 places apart. -/
  burst : ∀ (shown : Nat → Byte) (before bits others after : List Bool),
    bits.length ≤ 32 → bits.length = others.length →
    busStream screen settings.dispBusWidth (roi.rect.bytes screen fb) = before ++ bits ++ after →
    busStream screen settings.dispBusWidth (roi.rect.bytes screen shown) =
      before ++ others ++ after →
    (refSig screen settings.dispBusWidth (roi.rect.bytes screen shown) = roi.refSig ↔
      others = bits)
  /-- One wrong pixel is noticed when it is another one on the bus. -/
  pixel : ∀ (shown : Nat → Byte) (before : List Nat) (word other : Nat) (after : List Nat),
    words screen.bppBytes (roi.rect.bytes screen fb) = before ++ word :: after →
    words screen.bppBytes (roi.rect.bytes screen shown) = before ++ other :: after →
    (refSig screen settings.dispBusWidth (roi.rect.bytes screen shown) = roi.refSig ↔
      busWord screen settings.dispBusWidth other = busWord screen settings.dispBusWidth word)

/-! ## The checksum of a stream of bits -/

theorem crcBit_eq_shiftIn : crcBit = shiftIn polynomial := rfl

theorem polynomial_odd : polynomial.getLsbD 0 = true := by decide

theorem foldl_pixels {Pixel : Type} (bus : Pixel → Word) (crc : Word) (pixels : List Pixel) :
    pixels.foldl (fun crcOut pixel => crc32CalcSingle24bit crcOut (bus pixel)) crc =
      takeIn polynomial crc
        (pixels.flatMap fun pixel => busBits ((bus pixel).setWidth 24)) := by
  induction pixels generalizing crc with
  | nil => rfl
  | cons pixel rest ih =>
      rw [List.foldl_cons, ih, List.flatMap_cons, takeIn, takeIn, List.foldl_append,
        crc32CalcSingle24bit_eq, crcWord, crcBit_eq_shiftIn]

theorem crcLoop_stream {Pixel : Type} (bus : Pixel → Word) (pixelOf : Nat → Pixel)
    (first : Nat) (others : List Nat) :
    crcLoop bus 0 (pixelOf first) (others.map pixelOf) =
      takeIn polynomial 0
        ((first :: others).flatMap fun word => busBits ((bus (pixelOf word)).setWidth 24)) := by
  have whole := foldl_pixels bus 0 ((first :: others).map pixelOf)
  rwa [List.flatMap_map] at whole

/-- On both buses the checksum of some pixels is that of their bits. -/
theorem refSig_stream (screen : Screen) {dispBusWidth : Nat}
    (bus : dispBusWidth = 24 ∨ dispBusWidth = 18) (bytes : List Byte)
    (some : words screen.bppBytes bytes ≠ []) :
    refSig screen dispBusWidth bytes =
      .some (takeIn polynomial 0 (busStream screen dispBusWidth bytes)) := by
  unfold refSig busStream busWord
  cases found : words screen.bppBytes bytes with
  | nil => exact absurd found some
  | cons first others =>
      rcases bus with rfl | rfl
      · by_cases half : screen.bitsPerPixel = 16
        · simp only [half, if_true]
          exact congrArg _ (crcLoop_stream data24of16 (.ofNat 16) first others)
        · simp only [half, if_false, if_true]
          exact congrArg _ (crcLoop_stream id (.ofNat 32) first others)
      · have narrow : ¬ (18 = 24) := by decide
        by_cases half : screen.bitsPerPixel = 16
        · simp only [half, narrow, if_true, if_false]
          exact congrArg _ (crcLoop_stream data18of16 (.ofNat 16) first others)
        · simp only [half, narrow, if_true, if_false]
          exact congrArg _ (crcLoop_stream data18b (.ofNat 32) first others)

theorem busBits_length (data : BitVec 24) : (busBits data).length = 24 := by
  simp [busBits]

theorem busBits_injective {data other : BitVec 24} (equal : busBits data = busBits other) :
    data = other := by
  apply BitVec.eq_of_getMsbD_eq
  intro i inside
  have one := congrArg (fun bits => bits[i]?) equal
  simpa [busBits, inside] using one

/-! ## The rectangles -/

/-- The pixels of a row lie one behind the other, from the place where the copy stores it. -/
theorem Rect.bytes_rows (screen : Screen) (rect : Rect) (fb : Nat → Byte) :
    rect.bytes screen fb = (List.range rect.height).flatMap fun i =>
      readAt fb (rowOffset screen rect i) (lineLen screen rect) := by
  apply List.flatMap_congr
  intro i _
  rw [lineLen, readAt_rows]
  apply List.flatMap_congr
  intro j _
  have place : (rect.startY + i) * (screen.bppBytes * screen.xresVirtual) +
      screen.bppBytes * (rect.startX + j) = rowOffset screen rect i + j * screen.bppBytes := by
    rw [rowOffset]
    ring
  rw [Screen.pixel, place]

theorem Rect.bytes_length (screen : Screen) (rect : Rect) (fb : Nat → Byte) :
    (rect.bytes screen fb).length = rect.height * lineLen screen rect := by
  simp [Rect.bytes_rows, List.length_flatMap]

theorem Rect.words_nonempty (screen : Screen) (rect : Rect) (fb : Nat → Byte) :
    words screen.bppBytes (rect.bytes screen fb) ≠ [] := by
  intro none
  have count := congrArg List.length none
  have size : 0 < screen.bppBytes := by
    unfold Screen.bppBytes
    split <;> omega
  have one : screen.bppBytes ≤ (rect.bytes screen fb).length := by
    rw [rect.bytes_length, lineLen, ← Nat.mul_assoc]
    exact Nat.le_mul_of_pos_left _ (Nat.mul_pos (Nat.succ_pos _) (Nat.succ_pos _))
  have positive := Nat.div_pos one size
  simp only [words, List.length_map, List.length_range, List.length_nil] at count
  omega

def FilledWith (value : Byte) (screen : Screen) (rect : Rect) (fb : Nat → Byte) : Prop :=
  ∀ i < rect.height, ∀ j < lineLen screen rect, fb (rowOffset screen rect i + j) = value

theorem FilledWith.bytes {value : Byte} {screen : Screen} {rect : Rect} {fb : Nat → Byte}
    (filled : FilledWith value screen rect fb) :
    rect.bytes screen fb =
      List.replicate (rect.width * rect.height * screen.bppBytes) value := by
  have size : rect.width * rect.height * screen.bppBytes =
      rect.height * lineLen screen rect := by
    rw [lineLen]
    ac_rfl
  apply List.eq_replicate_iff.mpr
  refine ⟨by rw [rect.bytes_length, size], ?_⟩
  intro byte member
  rw [rect.bytes_rows] at member
  obtain ⟨i, row, inRow⟩ := List.mem_flatMap.mp member
  obtain ⟨j, column, rfl⟩ := List.mem_map.mp inRow
  exact filled i (List.mem_range.mp row) j (List.mem_range.mp column)

theorem writeAt_same (fb : Nat → Byte) (addr count : Nat) (value : Byte) {a : Nat}
    (has : fb a = value) : writeAt fb addr (List.replicate count value) a = value := by
  by_cases inside : addr ≤ a ∧ a < addr + count
  · obtain ⟨i, rfl⟩ := Nat.exists_eq_add_of_le inside.1
    have below : i < (List.replicate count value).length := by
      rw [List.length_replicate]
      omega
    rw [writeAt_inside fb addr _ i below, List.getElem_replicate]
  · rw [writeAt_outside fb addr _ a (by rw [List.length_replicate]; omega), has]

section Fill
variable (value : Byte) (screen : Screen) (rect : Rect)

theorem row_of_fill {i : Nat} (inside : i < rect.height) :
    ((List.replicate (rect.width * rect.height * screen.bppBytes) value).drop
      (i * lineLen screen rect)).take (lineLen screen rect) =
        List.replicate (lineLen screen rect) value := by
  have size : rect.width * rect.height * screen.bppBytes =
      rect.height * lineLen screen rect := by
    rw [lineLen]
    ac_rfl
  have room : (i + 1) * lineLen screen rect ≤ rect.height * lineLen screen rect :=
    Nat.mul_le_mul_right _ inside
  rw [Nat.succ_mul] at room
  rw [List.drop_replicate, List.take_replicate, size, Nat.min_eq_left (by omega)]

/-- One pass over some rows fills these and leaves whatever has the byte. -/
theorem copyRows_pass (rows : List Nat) (inside : ∀ i ∈ rows, i < rect.height)
    (fb : Nat → Byte) :
    let pbuf := List.replicate (rect.width * rect.height * screen.bppBytes) value
    let after := rows.foldl (fun fb i => writeAt fb (rowOffset screen rect i)
      ((pbuf.drop (i * lineLen screen rect)).take (lineLen screen rect))) fb
    (∀ a, fb a = value → after a = value) ∧
      ∀ i ∈ rows, ∀ j < lineLen screen rect, after (rowOffset screen rect i + j) = value := by
  induction rows generalizing fb with
  | nil => exact ⟨fun _ has => has, fun _ member => absurd member List.not_mem_nil⟩
  | cons i rest ih =>
      have here := row_of_fill value screen rect (inside i (List.mem_cons_self ..))
      obtain ⟨keeps, fills⟩ := ih (fun k member => inside k (List.mem_cons_of_mem _ member))
        (writeAt fb (rowOffset screen rect i) (List.replicate (lineLen screen rect) value))
      simp only [List.foldl_cons, here]
      refine ⟨fun a has => keeps a (writeAt_same fb _ _ value has), ?_⟩
      intro k member j column
      rcases List.mem_cons.mp member with rfl | later
      · have below : j < (List.replicate (lineLen screen rect) value).length := by
          rwa [List.length_replicate]
        refine keeps _ ?_
        rw [writeAt_inside fb _ _ j below, List.getElem_replicate]
      · exact fills k later j column

end Fill

/-- The region is filled, and its checksum is that of the fill. -/
def Filled (settings : Settings) (screen : Screen) (fb : Nat → Byte) (roi : RoiParams) :
    Prop :=
  FilledWith (UInt8.ofNat settings.showData) screen roi.rect fb ∧
    roi.refSig = refSig screen settings.dispBusWidth
      (List.replicate (roi.rect.width * roi.rect.height * screen.bppBytes)
        (UInt8.ofNat settings.showData))

theorem roiFbInit_fills (settings : Settings) (screen : Screen) (fb : Nat → Byte) (roiN : Nat)
    (rect : Rect) :
    let (after, roi) := roiFbInit settings screen fb roiN rect
    Filled settings screen after roi ∧
      ∀ other, Filled settings screen fb other → Filled settings screen after other := by
  obtain ⟨keeps, fills⟩ := copyRows_pass (UInt8.ofNat settings.showData) screen rect
    (List.range rect.height) (fun i member => List.mem_range.mp member) fb
  constructor
  · exact ⟨fun i row j column => fills i (List.mem_range.mpr row) j column, rfl⟩
  · intro other filled
    exact ⟨fun i row j column => keeps _ (filled.1 i row j column), filled.2⟩

/-- Whatever the regions have in common, each is filled in the end. -/
theorem roiConfig_filled (settings : Settings) (screen : Screen) (fb : Nat → Byte) :
    let (after, rois) := roiConfig settings screen fb
    ∀ roi ∈ rois, Filled settings screen after roi := by
  unfold roiConfig
  obtain ⟨first, _⟩ := roiFbInit_fills settings screen fb 1 settings.offsets
  obtain ⟨second, keepsFirst⟩ := roiFbInit_fills settings screen
    (roiFbInit settings screen fb 1 settings.offsets).1 3 ⟨250, 250, 360, 360, by decide⟩
  obtain ⟨third, keepsSecond⟩ := roiFbInit_fills settings screen
    (roiFbInit settings screen (roiFbInit settings screen fb 1 settings.offsets).1 3
      ⟨250, 250, 360, 360, by decide⟩).1 5 ⟨400, 400, 450, 450, by decide⟩
  apply List.forall_mem_cons.mpr ⟨keepsSecond _ (keepsFirst _ first), ?_⟩
  apply List.forall_mem_cons.mpr ⟨keepsSecond _ second, ?_⟩
  exact List.forall_mem_singleton.mpr third

/-! ## What the checksums tell apart -/

theorem Checked.of_intact {settings : Settings} {screen : Screen} {fb : Nat → Byte}
    {roi : RoiParams} (bus : settings.dispBusWidth = 24 ∨ settings.dispBusWidth = 18)
    (intact : refSig screen settings.dispBusWidth (roi.rect.bytes screen fb) = roi.refSig) :
    Checked settings screen fb roi := by
  have burst : ∀ (shown : Nat → Byte) (before bits others after : List Bool),
      bits.length ≤ 32 → bits.length = others.length →
      busStream screen settings.dispBusWidth (roi.rect.bytes screen fb) =
        before ++ bits ++ after →
      busStream screen settings.dispBusWidth (roi.rect.bytes screen shown) =
        before ++ others ++ after →
      (refSig screen settings.dispBusWidth (roi.rect.bytes screen shown) = roi.refSig ↔
        others = bits) := by
    intro shown before bits others after short lengths stream shownStream
    rw [← intact, refSig_stream screen bus _ (roi.rect.words_nonempty screen fb),
      refSig_stream screen bus _ (roi.rect.words_nonempty screen shown), stream, shownStream,
      Option.some.injEq]
    constructor
    · intro equal
      exact (takeIn_burst polynomial_odd 0 before bits others after lengths short equal.symm).symm
    · rintro rfl
      rfl
  refine ⟨intact, burst, ?_⟩
  intro shown before word other after found shownFound
  have parts := burst shown
    (before.flatMap fun word => busBits (busWord screen settings.dispBusWidth word))
    (busBits (busWord screen settings.dispBusWidth word))
    (busBits (busWord screen settings.dispBusWidth other))
    (after.flatMap fun word => busBits (busWord screen settings.dispBusWidth word))
    (by rw [busBits_length]; omega) (by rw [busBits_length, busBits_length])
    (by rw [busStream, found]; simp) (by rw [busStream, shownFound]; simp)
  rw [parts]
  exact ⟨busBits_injective, fun same => by rw [same]⟩

/-- Whatever the first rectangle covers of the others, the driver is given three checksums
that the picture in the framebuffer has, and that no picture has whose wrong bits on the bus
are at most 32 places apart, nor one with a single wrong pixel that is another on the bus. -/
theorem roiConfig_checks (settings : Settings) (screen : Screen) (fb : Nat → Byte)
    (bus : settings.dispBusWidth = 24 ∨ settings.dispBusWidth = 18) :
    let (after, rois) := roiConfig settings screen fb
    ∀ roi ∈ rois, Checked settings screen after roi := by
  have filled := roiConfig_filled settings screen fb
  intro roi member
  obtain ⟨fill, signature⟩ := filled roi member
  refine Checked.of_intact bus ?_
  rw [signature]
  exact congrArg _ fill.bytes

/-- A first rectangle that covers part of the second. -/
theorem roiConfig_checks_overlapping :
    let settings : Settings := ⟨0x33, 18, ⟨200, 200, 300, 300, by decide⟩⟩
    let screen : Screen := ⟨16, 1024⟩
    let (after, rois) := roiConfig settings screen fun _ => 0
    ∀ roi ∈ rois, Checked settings screen after roi :=
  roiConfig_checks ⟨0x33, 18, ⟨200, 200, 300, 300, by decide⟩⟩ ⟨16, 1024⟩ (fun _ => 0) (.inr rfl)

end ImxTest.Dcic
