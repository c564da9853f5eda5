import Mathlib.Tactic.Ring
import ImxTest.Lib.ByteMem
import ImxTest.Vpu.Basic
import ImxTest.Vpu.TiledFramebuf

/-!
# `write_to_file`: a decoded picture to the output file

The picture is in a frame buffer of the linear map, rotated or not, with its two chroma
planes apart or in pairs.  A buffer with pairs is first copied to one with the planes
apart, and a cropping rectangle is cut out row by row.

Pointers are offsets from the start of the block they point into, and `malloc` does not
fail.  Sizes are `int`s; they are those of a frame buffer, and do not overflow.
-/

set_option autoImplicit false

namespace ImxTest.Vpu.SaveFile

open ImxTest.Lib.ByteMem
open ImxTest.Vpu.TiledFramebuf (Format)

structure Rect where
  left : Nat
  top : Nat
  right : Nat
  bottom : Nat
  deriving DecidableEq, Repr

/-- What the functions read of the decoder, its command line and the chip. -/
structure Decode where
  picwidth : Nat
  picheight : Nat
  stride : Nat
  rotEn : Bool
  rotAngle : Int
  /-- `chromaInterleave` is not 0. -/
  chromaInterleave : Bool
  /-- The format is `STD_MJPG`. -/
  isMjpg : Bool
  mjpgFmt : Format
  mx6x : Bool
  /-- The map type is `LINEAR_FRAME_MAP`. -/
  linear : Bool
  tiled2LinearEnable : Bool
  deriving DecidableEq, Repr

/-! ## Taking the pairs apart -/

/-- The target of the copy and the two pointers that move through it. -/
structure Nv12State where
  mem : Nat → Byte
  cb1 : Nat
  cr1 : Nat

/-- `*Cb1++ = tmp[x]; *Cr1++ = tmp[x + 1]`. -/
def Nv12State.pair (state : Nv12State) (cb cr : Byte) : Nv12State :=
  ⟨writeAt (writeAt state.mem state.cb1 [cb]) state.cr1 [cr], state.cb1 + 1, state.cr1 + 1⟩

/-- The inner loop from `tmp + x` on. -/
def nv12Row (buf : Nat → Byte) : (pairs source : Nat) → Nv12State → Nv12State
  | 0, _, state => state
  | pairs + 1, source, state =>
      nv12Row buf pairs (source + 2) (state.pair (buf source) (buf (source + 1)))

/-- The outer loop from row `y` on; `x` takes every second value below the width. -/
def nv12Rows (buf : Nat → Byte) (picwidth cb : Nat) :
    (rows y : Nat) → Nv12State → Nv12State
  | 0, _, state => state
  | rows + 1, y, state =>
      nv12Rows buf picwidth cb rows (y + 1)
        (nv12Row buf ((picwidth + 1) / 2) (cb + picwidth * y) state)

/-- `saveNV12ImageHelper(pYuv, dec, buf)`: the block at `pYuv` after it. -/
def saveNV12ImageHelper (pYuv : Nat → Byte) (dec : Decode) (buf : Nat → Byte) : Nat → Byte :=
  let imgSize := dec.stride * dec.picheight
  let start : Nv12State :=
    ⟨writeAt pYuv 0 (readAt buf 0 imgSize), imgSize, imgSize + imgSize >>> 2⟩
  (nv12Rows buf dec.picwidth imgSize (dec.picheight / 2) 0 start).mem

/-! ## Cutting out the rectangle -/

/-- The rows that a loop writes which goes on by a stride. -/
def writeRows (buf : Nat → Byte) (stride width : Nat) : (rows start : Nat) → List Byte
  | 0, _ => []
  | rows + 1, start => readAt buf start width ++ writeRows buf stride width rows (start + stride)

def saveCropYuvImageHelper (dec : Decode) (buf : Nat → Byte) (cropRect : Rect) : List Byte :=
  let turned := dec.rotEn ∧ (dec.rotAngle = 90 ∨ dec.rotAngle = 270)
  let width := if turned then dec.picheight else dec.picwidth
  let height := if turned then dec.picwidth else dec.picheight
  let cropWidth := cropRect.right - cropRect.left
  let cropHeight := cropRect.bottom - cropRect.top
  let luma := writeRows buf width cropWidth cropHeight (width * cropRect.top + cropRect.left)
  if dec.isMjpg ∧ dec.mjpgFmt = .mode400 then luma
  else
    let chroma := width / 2 * (cropRect.top / 2) + cropRect.left / 2
    luma ++
      writeRows buf (width / 2) (cropWidth / 2) (cropHeight / 2) (width * height + chroma) ++
      writeRows buf (width / 2) (cropWidth / 2) (cropHeight / 2) (width * height * 5 / 4 + chroma)

/-! ## The function -/

def imgSize (dec : Decode) (height : Nat) : Nat :=
  if dec.isMjpg then
    if dec.mjpgFmt = .mode422 ∨ dec.mjpgFmt = .mode224 then dec.stride * height * 2
    else if dec.mjpgFmt = .mode400 then dec.stride * height
    else if dec.mjpgFmt = .mode444 then dec.stride * height * 3
    else dec.stride * height * 3 / 2
  else dec.stride * height * 3 / 2

/-- The bytes that `write_to_file` writes: `buf` is the frame buffer, `fresh` a block that
`malloc` gives, and `tiled` what `SaveTiledYuvImageHelper` writes. -/
def writeToFile (dec : Decode) (buf fresh : Nat → Byte) (tiled : List Byte) (cropRect : Rect) :
    List Byte :=
  let height := (dec.picheight + 15) / 16 * 16
  let cropping := cropRect.left ||| cropRect.top ||| cropRect.bottom ||| cropRect.right
  if dec.mx6x ∧ ¬ dec.linear ∧ ¬ dec.tiled2LinearEnable then tiled
  else if (dec.chromaInterleave = false ∧ cropping = 0) ∨ dec.isMjpg then
    readAt buf 0 (imgSize dec height)
  else
    let source := if dec.chromaInterleave then saveNV12ImageHelper fresh dec buf else buf
    if cropping ≠ 0 then saveCropYuvImageHelper dec source cropRect
    else readAt source 0 (imgSize dec height)

/-! ## Pictures -/

/-- The samples of the three planes by row and column. -/
structure Picture where
  y : Nat → Nat → Byte
  cb : Nat → Nat → Byte
  cr : Nat → Nat → Byte

/-- The sides of the picture as the VPU has put it out. -/
def Decode.turned (dec : Decode) : Prop :=
  dec.rotEn ∧ (dec.rotAngle = 90 ∨ dec.rotAngle = 270)

instance (dec : Decode) : Decidable dec.turned := inferInstanceAs (Decidable (_ ∧ _))

def Decode.width (dec : Decode) : Nat := if dec.turned then dec.picheight else dec.picwidth

def Decode.height (dec : Decode) : Nat := if dec.turned then dec.picwidth else dec.picheight

/-- A buffer with three planes, one behind the other. -/
structure Planar (width height : Nat) (picture : Picture) (buf : Nat → Byte) : Prop where
  y : ∀ r < height, ∀ c < width, buf (r * width + c) = picture.y r c
  cb : ∀ r < height / 2, ∀ c < width / 2,
    buf (width * height + (r * (width / 2) + c)) = picture.cb r c
  cr : ∀ r < height / 2, ∀ c < width / 2,
    buf (width * height + width * height / 4 + (r * (width / 2) + c)) = picture.cr r c

/-- A buffer with a plane of pairs behind the luma plane. -/
structure Nv12 (width height : Nat) (picture : Picture) (buf : Nat → Byte) : Prop where
  y : ∀ r < height, ∀ c < width, buf (r * width + c) = picture.y r c
  cb : ∀ r < height / 2, ∀ c < width / 2,
    buf (width * height + (r * width + 2 * c)) = picture.cb r c
  cr : ∀ r < height / 2, ∀ c < width / 2,
    buf (width * height + (r * width + 2 * c + 1)) = picture.cr r c

def cropped (plane : Nat → Nat → Byte) (cropRect : Rect) : List Byte :=
  (List.range (cropRect.bottom - cropRect.top)).flatMap fun r =>
    (List.range (cropRect.right - cropRect.left)).map fun c =>
      plane (cropRect.top + r) (cropRect.left + c)

def Rect.half (cropRect : Rect) : Rect :=
  ⟨cropRect.left / 2, cropRect.top / 2, cropRect.right / 2, cropRect.bottom / 2⟩

def Picture.saved (picture : Picture) (cropRect : Rect) : List Byte :=
  cropped picture.y cropRect ++ cropped picture.cb cropRect.half ++
    cropped picture.cr cropRect.half

/-- The rectangle that remains: all of the picture if there is no cropping. -/
def Rect.window (cropRect : Rect) (width height : Nat) : Rect :=
  if cropRect = ⟨0, 0, 0, 0⟩ then ⟨0, 0, width, height⟩ else cropRect

/-- No cropping, or a rectangle inside the picture with even sides. -/
structure Rect.Ok (cropRect : Rect) (width height : Nat) : Prop where
  left : cropRect.left ≤ cropRect.right
  top : cropRect.top ≤ cropRect.bottom
  right : cropRect.right ≤ width
  bottom : cropRect.bottom ≤ height
  even : cropRect.left % 2 = 0 ∧ cropRect.top % 2 = 0 ∧ cropRect.right % 2 = 0 ∧
    cropRect.bottom % 2 = 0

/-! ## The copy with the planes apart -/

theorem pair_outside (state : Nv12State) (cb cr : Byte) {a : Nat} (notCb : a ≠ state.cb1)
    (notCr : a ≠ state.cr1) : (state.pair cb cr).mem a = state.mem a := by
  simp only [Nv12State.pair]
  rw [writeAt_outside _ _ _ _ (by simp only [List.length_singleton]; omega),
    writeAt_outside _ _ _ _ (by simp only [List.length_singleton]; omega)]

theorem pair_cb (state : Nv12State) (cb cr : Byte) (apart : state.cb1 < state.cr1) :
    (state.pair cb cr).mem state.cb1 = cb := by
  simp only [Nv12State.pair]
  rw [writeAt_outside _ _ _ _ (.inl apart)]
  exact writeAt_inside state.mem state.cb1 [cb] 0 Nat.zero_lt_one

theorem pair_cr (state : Nv12State) (cb cr : Byte) : (state.pair cb cr).mem state.cr1 = cr :=
  writeAt_inside _ state.cr1 [cr] 0 Nat.zero_lt_one

theorem nv12Row_outside (buf : Nat → Byte) (pairs source : Nat) (state : Nv12State) {a : Nat}
    (notCb : a < state.cb1 ∨ state.cb1 + pairs ≤ a)
    (notCr : a < state.cr1 ∨ state.cr1 + pairs ≤ a) :
    (nv12Row buf pairs source state).mem a = state.mem a := by
  induction pairs generalizing source state with
  | zero => rfl
  | succ pairs ih =>
      rw [nv12Row, ih, pair_outside state _ _ (by omega) (by omega)]
      · simp only [Nv12State.pair]
        omega
      · simp only [Nv12State.pair]
        omega

theorem nv12Row_pairs (buf : Nat → Byte) (pairs source : Nat) (state : Nv12State)
    (apart : state.cb1 + pairs ≤ state.cr1) :
    ∀ i < pairs,
      (nv12Row buf pairs source state).mem (state.cb1 + i) = buf (source + 2 * i) ∧
        (nv12Row buf pairs source state).mem (state.cr1 + i) = buf (source + 2 * i + 1) := by
  induction pairs generalizing source state with
  | zero =>
      intro i below
      omega
  | succ pairs ih =>
      intro i below
      rw [nv12Row]
      cases i with
      | zero =>
          simp only [Nat.add_zero, Nat.mul_zero]
          constructor
          · rw [nv12Row_outside, pair_cb state _ _ (by omega)]
            · simp only [Nv12State.pair]
              omega
            · simp only [Nv12State.pair]
              omega
          · rw [nv12Row_outside, pair_cr]
            · simp only [Nv12State.pair]
              omega
            · simp only [Nv12State.pair]
              omega
      | succ i =>
          have later := ih (source + 2) (state.pair (buf source) (buf (source + 1)))
            (by simp only [Nv12State.pair]; omega) i (by omega)
          simp only [Nv12State.pair] at later ⊢
          rw [show state.cb1 + (i + 1) = state.cb1 + 1 + i by omega,
            show state.cr1 + (i + 1) = state.cr1 + 1 + i by omega,
            show source + 2 * (i + 1) = source + 2 + 2 * i by omega]
          exact later

theorem nv12Row_add (buf : Nat → Byte) (first second source : Nat) (state : Nv12State) :
    nv12Row buf (first + second) source state =
      nv12Row buf second (source + 2 * first) (nv12Row buf first source state) := by
  induction first generalizing source state with
  | zero => simp [nv12Row]
  | succ first ih =>
      rw [Nat.succ_add, nv12Row, nv12Row, ih]
      congr 1
      omega

/-- With an even width the rows follow each other like one. -/
theorem nv12Rows_eq (buf : Nat → Byte) (half cb rows y : Nat) (state : Nv12State) :
    nv12Rows buf (2 * half) cb rows y state =
      nv12Row buf (rows * half) (cb + 2 * half * y) state := by
  have pairs : (2 * half + 1) / 2 = half := by omega
  induction rows generalizing y state with
  | zero => simp [nv12Rows, nv12Row]
  | succ rows ih =>
      rw [nv12Rows, ih, pairs, Nat.succ_mul rows, Nat.add_comm (rows * half), nv12Row_add,
        Nat.mul_succ, Nat.add_assoc]

/-- The sides as `decoder_parse` rounds them. -/
structure Decode.Sized (dec : Decode) : Prop where
  stride : dec.stride = dec.picwidth
  width : dec.picwidth % 16 = 0
  height : dec.picheight % 16 = 0

section Sized
variable {dec : Decode} (sized : dec.Sized)

theorem width_mul_height : dec.width * dec.height = dec.picwidth * dec.picheight := by
  unfold Decode.width Decode.height
  split
  · exact Nat.mul_comm _ _
  · rfl

include sized

theorem Decode.Sized.sides : dec.width % 16 = 0 ∧ dec.height % 16 = 0 := by
  unfold Decode.width Decode.height
  split
  · exact ⟨sized.height, sized.width⟩
  · exact ⟨sized.width, sized.height⟩

theorem Decode.Sized.quarter :
    dec.width * dec.height = 4 * (dec.height / 2 * (dec.width / 2)) ∧
      dec.picwidth * dec.picheight = 4 * (dec.picheight / 2 * (dec.picwidth / 2)) := by
  have four (width height : Nat) (evenWidth : width % 16 = 0) (evenHeight : height % 16 = 0) :
      width * height = 4 * (height / 2 * (width / 2)) := by
    obtain ⟨w, rfl⟩ : 2 ∣ width := Nat.dvd_of_mod_eq_zero (by omega)
    obtain ⟨h, rfl⟩ : 2 ∣ height := Nat.dvd_of_mod_eq_zero (by omega)
    rw [Nat.mul_div_cancel_left _ Nat.two_pos, Nat.mul_div_cancel_left _ Nat.two_pos]
    ring
  exact ⟨four _ _ sized.sides.1 sized.sides.2, four _ _ sized.width sized.height⟩

theorem saveNV12ImageHelper_mem (fresh buf : Nat → Byte) :
    (∀ k < dec.width * dec.height, saveNV12ImageHelper fresh dec buf k = buf k) ∧
      ∀ i < dec.height / 2 * (dec.width / 2),
        saveNV12ImageHelper fresh dec buf (dec.width * dec.height + i) =
            buf (dec.width * dec.height + 2 * i) ∧
          saveNV12ImageHelper fresh dec buf
              (dec.width * dec.height + dec.width * dec.height / 4 + i) =
            buf (dec.width * dec.height + 2 * i + 1) := by
  obtain ⟨quarter, picQuarter⟩ := sized.quarter
  have same := @width_mul_height dec
  have even := sized.width
  have width : dec.picwidth = 2 * (dec.picwidth / 2) := by omega
  have pairs : dec.picheight / 2 * (dec.picwidth / 2) = dec.height / 2 * (dec.width / 2) := by
    omega
  have copy : saveNV12ImageHelper fresh dec buf =
      (nv12Row buf (dec.height / 2 * (dec.width / 2)) (dec.width * dec.height)
        ⟨writeAt fresh 0 (readAt buf 0 (dec.width * dec.height)), dec.width * dec.height,
          dec.width * dec.height + dec.width * dec.height / 4⟩).mem := by
    rw [saveNV12ImageHelper, sized.stride, ← same, Nat.shiftRight_eq_div_pow, width, nv12Rows_eq,
      pairs, Nat.mul_zero, Nat.add_zero]
  rw [copy]
  constructor
  · intro k below
    rw [nv12Row_outside _ _ _ _ (.inl below) (.inl (by simp only; omega))]
    have inside := writeAt_inside fresh 0 (readAt buf 0 (dec.width * dec.height)) k
      (by rw [readAt_length]; exact below)
    rw [Nat.zero_add] at inside
    simp only [inside]
    simp [readAt]
  · exact nv12Row_pairs buf _ _ _ (by simp only; omega)

theorem Nv12.planar {picture : Picture} {buf : Nat → Byte}
    (nv12 : Nv12 dec.width dec.height picture buf) (fresh : Nat → Byte) :
    Planar dec.width dec.height picture (saveNV12ImageHelper fresh dec buf) := by
  obtain ⟨luma, chroma⟩ := saveNV12ImageHelper_mem sized fresh buf
  obtain ⟨even, -⟩ := sized.sides
  have sample {r c rows width : Nat} (row : r < rows) (column : c < width) :
      r * width + c < rows * width := by
    have next : (r + 1) * width ≤ rows * width := Nat.mul_le_mul_right width row
    rw [Nat.succ_mul] at next
    omega
  have source (r c : Nat) : 2 * (r * (dec.width / 2) + c) = r * dec.width + 2 * c := by
    have half : 2 * (dec.width / 2) = dec.width := by omega
    rw [Nat.mul_add, Nat.mul_left_comm, half]
  refine ⟨?_, ?_, ?_⟩
  · intro r row c column
    have inside := sample row column
    rw [Nat.mul_comm dec.height] at inside
    rw [luma _ inside, nv12.y r row c column]
  · intro r row c column
    rw [(chroma _ (sample row column)).1, source, nv12.cb r row c column]
  · intro r row c column
    rw [(chroma _ (sample row column)).2, source, Nat.add_assoc, nv12.cr r row c column]

end Sized

/-! ## Rows of a plane -/

theorem writeRows_eq (buf : Nat → Byte) (stride width rows start : Nat) :
    writeRows buf stride width rows start =
      (List.range rows).flatMap fun r => readAt buf (start + r * stride) width := by
  induction rows generalizing start with
  | zero => rfl
  | succ rows ih =>
      rw [writeRows, ih, List.range_succ_eq_map, List.flatMap_cons, List.flatMap_map]
      simp only [Nat.zero_mul, Nat.add_zero, Nat.succ_mul, Nat.add_assoc, Nat.add_comm stride]

section Plane
variable {buf : Nat → Byte} {plane : Nat → Nat → Byte} {base width height : Nat}
  (holds : ∀ r < height, ∀ c < width, buf (base + (r * width + c)) = plane r c)
include holds

theorem writeRows_cropped {cropRect : Rect} (right : cropRect.right ≤ width)
    (bottom : cropRect.bottom ≤ height) :
    writeRows buf width (cropRect.right - cropRect.left) (cropRect.bottom - cropRect.top)
        (base + (width * cropRect.top + cropRect.left)) = cropped plane cropRect := by
  rw [writeRows_eq, cropped]
  apply List.flatMap_congr
  intro r row
  have row := List.mem_range.mp row
  unfold readAt
  apply List.map_congr_left
  intro c column
  have column := List.mem_range.mp column
  rw [← holds (cropRect.top + r) (by omega) (cropRect.left + c) (by omega)]
  congr 1
  rw [Nat.add_mul, Nat.mul_comm width]
  omega

theorem readAt_plane :
    readAt buf base (height * width) = cropped plane ⟨0, 0, width, height⟩ := by
  rw [readAt_rows, ← writeRows_eq]
  exact @writeRows_cropped _ _ _ _ _ holds ⟨0, 0, width, height⟩ (Nat.le_refl _) (Nat.le_refl _)

end Plane

/-! ## The file -/

theorem Planar.luma {width height : Nat} {picture : Picture} {buf : Nat → Byte}
    (planar : Planar width height picture buf) :
    ∀ r < height, ∀ c < width, buf (0 + (r * width + c)) = picture.y r c := by
  intro r row c column
  rw [Nat.zero_add]
  exact planar.y r row c column

section File
variable {dec : Decode} (sized : dec.Sized) {picture : Picture} {buf : Nat → Byte}
  (planar : Planar dec.width dec.height picture buf)
include sized planar

theorem readAt_saved (notMjpg : dec.isMjpg = false) :
    readAt buf 0 (imgSize dec ((dec.picheight + 15) / 16 * 16)) =
      picture.saved ⟨0, 0, dec.width, dec.height⟩ := by
  obtain ⟨quarter, -⟩ := sized.quarter
  have same := @width_mul_height dec
  have rounded : (dec.picheight + 15) / 16 * 16 = dec.picheight := by
    have := sized.height
    omega
  have size : imgSize dec ((dec.picheight + 15) / 16 * 16) =
      dec.height * dec.width + dec.height / 2 * (dec.width / 2) +
        dec.height / 2 * (dec.width / 2) := by
    rw [imgSize, notMjpg, rounded, sized.stride, ← same, Nat.mul_comm dec.height]
    simp only [Bool.false_eq_true, if_false]
    omega
  have half : (⟨0, 0, dec.width, dec.height⟩ : Rect).half =
      ⟨0, 0, dec.width / 2, dec.height / 2⟩ := by
    simp only [Rect.half, Nat.zero_div]
  have cr : dec.width * dec.height / 4 = dec.height / 2 * (dec.width / 2) := by omega
  rw [size, readAt_add, readAt_add, readAt_plane planar.luma, Picture.saved, half,
    ← readAt_plane planar.cb, ← readAt_plane planar.cr, cr, Nat.mul_comm dec.height,
    Nat.zero_add, Nat.zero_add]

theorem saveCrop_saved (notMjpg : dec.isMjpg = false) {cropRect : Rect}
    (ok : cropRect.Ok dec.width dec.height) :
    saveCropYuvImageHelper dec buf cropRect = picture.saved cropRect := by
  obtain ⟨quarter, -⟩ := sized.quarter
  obtain ⟨left, top, right, bottom⟩ := ok.even
  have inRight := ok.right
  have inBottom := ok.bottom
  have width : (cropRect.right - cropRect.left) / 2 = cropRect.half.right - cropRect.half.left := by
    simp only [Rect.half]
    omega
  have height : (cropRect.bottom - cropRect.top) / 2 =
      cropRect.half.bottom - cropRect.half.top := by
    simp only [Rect.half]
    omega
  have cr : dec.width * dec.height * 5 / 4 =
      dec.width * dec.height + dec.width * dec.height / 4 := by omega
  have halfRight : cropRect.half.right ≤ dec.width / 2 := Nat.div_le_div_right inRight
  have halfBottom : cropRect.half.bottom ≤ dec.height / 2 := Nat.div_le_div_right inBottom
  have unfolded : saveCropYuvImageHelper dec buf cropRect =
      writeRows buf dec.width (cropRect.right - cropRect.left) (cropRect.bottom - cropRect.top)
          (0 + (dec.width * cropRect.top + cropRect.left)) ++
        writeRows buf (dec.width / 2) (cropRect.half.right - cropRect.half.left)
          (cropRect.half.bottom - cropRect.half.top)
          (dec.width * dec.height +
            (dec.width / 2 * cropRect.half.top + cropRect.half.left)) ++
        writeRows buf (dec.width / 2) (cropRect.half.right - cropRect.half.left)
          (cropRect.half.bottom - cropRect.half.top)
          (dec.width * dec.height + dec.width * dec.height / 4 +
            (dec.width / 2 * cropRect.half.top + cropRect.half.left)) := by
    rw [← width, ← height, ← cr, Nat.zero_add]
    simp only [saveCropYuvImageHelper, notMjpg, Bool.false_eq_true, false_and, if_false]
    rfl
  rw [unfolded, writeRows_cropped planar.luma inRight inBottom,
    writeRows_cropped planar.cb halfRight halfBottom,
    writeRows_cropped planar.cr halfRight halfBottom, Picture.saved]

end File

theorem cropping_eq_zero (cropRect : Rect) :
    (cropRect.left ||| cropRect.top ||| cropRect.bottom ||| cropRect.right) = 0 ↔
      cropRect = ⟨0, 0, 0, 0⟩ := by
  obtain ⟨left, top, right, bottom⟩ := cropRect
  simp only [Nat.or_eq_zero_iff, Rect.mk.injEq]
  tauto

section Layouts
variable {dec : Decode} (sized : dec.Sized) (linear : dec.linear = true)
  (notMjpg : dec.isMjpg = false) {cropRect : Rect} (ok : cropRect.Ok dec.width dec.height)
  {picture : Picture}
include sized notMjpg ok

theorem source_saved {source : Nat → Byte}
    (planar : Planar dec.width dec.height picture source) :
    (if (cropRect.left ||| cropRect.top ||| cropRect.bottom ||| cropRect.right) ≠ 0 then
        saveCropYuvImageHelper dec source cropRect
      else readAt source 0 (imgSize dec ((dec.picheight + 15) / 16 * 16))) =
      picture.saved (cropRect.window dec.width dec.height) := by
  unfold Rect.window
  simp only [ne_eq, cropping_eq_zero]
  by_cases none : cropRect = ⟨0, 0, 0, 0⟩
  · rw [if_neg (not_not_intro none), if_pos none]
    exact readAt_saved sized planar notMjpg
  · rw [if_pos none, if_neg none]
    exact saveCrop_saved sized planar notMjpg ok

include linear

theorem writeToFile_planar (apart : dec.chromaInterleave = false) {buf : Nat → Byte}
    (planar : Planar dec.width dec.height picture buf) (fresh : Nat → Byte) (tiled : List Byte) :
    writeToFile dec buf fresh tiled cropRect =
      picture.saved (cropRect.window dec.width dec.height) := by
  rw [← source_saved sized notMjpg ok planar]
  by_cases none : (cropRect.left ||| cropRect.top ||| cropRect.bottom ||| cropRect.right) = 0
  · simp [writeToFile, linear, notMjpg, apart, none]
  · simp [writeToFile, linear, notMjpg, apart, none]

theorem writeToFile_nv12 (pairs : dec.chromaInterleave = true) {buf : Nat → Byte}
    (nv12 : Nv12 dec.width dec.height picture buf) (fresh : Nat → Byte) (tiled : List Byte) :
    writeToFile dec buf fresh tiled cropRect =
      picture.saved (cropRect.window dec.width dec.height) := by
  rw [← source_saved sized notMjpg ok (nv12.planar sized fresh)]
  simp only [writeToFile, linear, notMjpg, pairs, not_true_eq_false, false_and, and_false,
    if_false, Bool.true_eq_false, Bool.false_eq_true, or_false, if_true]

end Layouts

/-- For both chroma layouts the file gets the cropped planes, one behind the other. -/
theorem writeToFile_saved (dec : Decode) (sized : dec.Sized) (linear : dec.linear = true)
    (notMjpg : dec.isMjpg = false) (cropRect : Rect)
    (ok : cropRect.Ok dec.width dec.height) (picture : Picture) (planarBuf nv12Buf : Nat → Byte)
    (planar : Planar dec.width dec.height picture planarBuf)
    (nv12 : Nv12 dec.width dec.height picture nv12Buf) (fresh : Nat → Byte) (tiled : List Byte) :
    writeToFile { dec with chromaInterleave := false } planarBuf fresh tiled cropRect =
        picture.saved (cropRect.window dec.width dec.height) ∧
      writeToFile { dec with chromaInterleave := true } nv12Buf fresh tiled cropRect =
        picture.saved (cropRect.window dec.width dec.height) := by
  have apart : ({ dec with chromaInterleave := false } : Decode).Sized :=
    ⟨sized.stride, sized.width, sized.height⟩
  have pairs : ({ dec with chromaInterleave := true } : Decode).Sized :=
    ⟨sized.stride, sized.width, sized.height⟩
  exact ⟨writeToFile_planar apart linear notMjpg ok rfl planar fresh tiled,
    writeToFile_nv12 pairs linear notMjpg ok rfl nv12 fresh tiled⟩

def turnedDecode : Decode := ⟨32, 16, 32, true, 90, true, false, .mode420, true, true, false⟩

/-- Its samples count the bytes of the planes, one plane behind the other. -/
def countingPicture : Picture :=
  ⟨fun r c => .ofNat (16 * r + c), fun r c => .ofNat (512 + (8 * r + c)),
    fun r c => .ofNat (640 + (8 * r + c))⟩

def countingPairs (a : Nat) : Byte :=
  if a < 512 then .ofNat a
  else if a % 2 = 0 then .ofNat (512 + (a - 512) / 2)
  else .ofNat (640 + (a - 512) / 2)

theorem countingPairs_nv12 : Nv12 16 32 countingPicture countingPairs := by
  refine ⟨?_, ?_, ?_⟩
  · intro r row c column
    rw [countingPairs, if_pos (by omega)]
    exact congrArg UInt8.ofNat (by omega)
  · intro r row c column
    rw [countingPairs, if_neg (by omega), if_pos (by omega)]
    exact congrArg UInt8.ofNat (by omega)
  · intro r row c column
    rw [countingPairs, if_neg (by omega), if_neg (by omega)]
    exact congrArg UInt8.ofNat (by omega)

theorem writeToFile_saved_turned :
    writeToFile { turnedDecode with chromaInterleave := true } countingPairs (fun _ => 0) []
        ⟨2, 4, 6, 8⟩ =
      [66, 67, 68, 69, 82, 83, 84, 85, 98, 99, 100, 101, 114, 115, 116, 117,
        17, 18, 25, 26, 145, 146, 153, 154] := by
  have planar : Planar 16 32 countingPicture .ofNat := by
    refine ⟨?_, ?_, ?_⟩
    · intro r row c column
      exact congrArg UInt8.ofNat (by omega)
    · intro r row c column
      exact congrArg UInt8.ofNat (by omega)
    · intro r row c column
      exact congrArg UInt8.ofNat (by omega)
  exact (writeToFile_saved turnedDecode ⟨rfl, rfl, rfl⟩ rfl rfl ⟨2, 4, 6, 8⟩
    ⟨by decide, by decide, by decide, by decide, by decide⟩ countingPicture _ _ planar
    countingPairs_nv12 (fun _ => 0) []).2

end ImxTest.Vpu.SaveFile
