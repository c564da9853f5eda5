import ImxTest.Vpu.ReadFile
import ImxTest.Vpu.SaveFile

/-!
# Decoded pictures as input of the encoder

`write_to_file` puts decoded pictures one behind the other into a file, and with such a file
as its source the encoder takes one picture a turn with `read_from_file`.  The file has no
header: that both sides agree on where a sample is, follows from their loops only.
-/

set_option autoImplicit false

namespace ImxTest.Vpu.RawVideo

open ImxTest.Lib.ByteMem
open ImxTest.Vpu.ReadFile
open ImxTest.Vpu.SaveFile

/-- A decoded picture in its frame buffer, with what `malloc` gives for the copy of it. -/
structure Shot where
  picture : Picture
  buf : Nat → Byte
  fresh : Nat → Byte

/-- The frame buffer holds the picture in the layout of the decoder. -/
def Shot.InBuffer (dec : Decode) (shot : Shot) : Prop :=
  if dec.chromaInterleave then Nv12 dec.width dec.height shot.picture shot.buf
  else Planar dec.width dec.height shot.picture shot.buf

/-- The file behind the pictures; what is written for a buffer that is not linear does not
come into it. -/
def savedFile (dec : Decode) (cropRect : Rect) (shots : List Shot) : List Byte :=
  shots.flatMap fun shot => writeToFile dec shot.buf shot.fresh [] cropRect

/-- The turns of the encoder: the source buffer behind each `read_from_file`.  Before each
the memory may be anything. -/
def readFrames (enc : Enc) (pfb : FrameBuf) : List (Nat → Byte) → File → List (Nat → Byte) × File
  | [], file => ([], file)
  | mem :: rest, file =>
      let state := readFromFile enc pfb ⟨mem, file, 0⟩
      let (mems, file) := readFrames enc pfb rest state.file
      (state.mem :: mems, file)

/-- The window of the picture is in the source buffer, sample by sample. -/
structure InSource (enc : Enc) (pfb : FrameBuf) (window : Rect) (picture : Picture)
    (mem : Nat → Byte) : Prop where
  y : ∀ r < enc.srcPicheight, ∀ c < enc.srcPicwidth,
    mem (pfb.virtual pfb.addrY + r * pfb.strideY + c) = picture.y (window.top + r) (window.left + c)
  cb : ∀ r < enc.srcPicheight / 2, ∀ c < enc.srcPicwidth / 2,
    mem (pfb.virtual pfb.addrCb + r * pfb.strideC + c) =
      picture.cb (window.top / 2 + r) (window.left / 2 + c)
  cr : ∀ r < enc.srcPicheight / 2, ∀ c < enc.srcPicwidth / 2,
    mem (pfb.virtual pfb.addrCr + r * pfb.strideC + c) =
      picture.cr (window.top / 2 + r) (window.left / 2 + c)

/-! ## A plane in the file -/

section Plane
variable (plane : Nat → Nat → Byte) (rect : Rect)

theorem cropped_length :
    (cropped plane rect).length = (rect.right - rect.left) * (rect.bottom - rect.top) := by
  simp [cropped, List.length_flatMap, Nat.mul_comm]

/-- Rows of one length, one behind the other. -/
theorem getElem?_rows {Value : Type} (row : Nat → Nat → Value) (width : Nat) {r c rows : Nat}
    (inside : r < rows) (column : c < width) :
    ((List.range rows).flatMap fun r => (List.range width).map (row r))[r * width + c]? =
      some (row r c) := by
  induction rows with
  | zero => exact absurd inside (Nat.not_lt_zero r)
  | succ rows ih =>
      have length : ((List.range rows).flatMap fun r => (List.range width).map (row r)).length =
          rows * width := by
        simp [List.length_flatMap]
      rw [List.range_succ, List.flatMap_append]
      rcases Nat.lt_succ_iff_lt_or_eq.mp inside with earlier | rfl
      · rw [List.getElem?_append_left, ih earlier]
        rw [length, Nat.mul_comm rows]
        exact sample_lt earlier column
      · rw [List.getElem?_append_right (by omega), length, Nat.add_sub_cancel_left]
        simp [column]

theorem cropped_get {r c : Nat} (row : r < rect.bottom - rect.top)
    (column : c < rect.right - rect.left) :
    (cropped plane rect)[r * (rect.right - rect.left) + c]? =
      some (plane (rect.top + r) (rect.left + c)) :=
  getElem?_rows (fun r c => plane (rect.top + r) (rect.left + c)) _ row column

end Plane

structure Even (rect : Rect) : Prop where
  left : rect.left ≤ rect.right
  top : rect.top ≤ rect.bottom
  even : rect.left % 2 = 0 ∧ rect.top % 2 = 0 ∧ rect.right % 2 = 0 ∧ rect.bottom % 2 = 0

/-- An encoder for pictures of the size of the window, with the chroma planes apart. -/
structure ForWindow (enc : Enc) (window : Rect) : Prop where
  width : enc.srcPicwidth = window.right - window.left
  height : enc.srcPicheight = window.bottom - window.top
  format : enc.mjpgFmt = .mode420
  planar : enc.chromaInterleave = false

section Frames
variable {enc : Enc} {pfb : FrameBuf} {window : Rect}

theorem ForWindow.halves (sides : ForWindow enc window) (even : Even window) :
    enc.cWidth = window.half.right - window.half.left ∧
      enc.cHeight = window.half.bottom - window.half.top ∧
      enc.cWidth = enc.srcPicwidth / 2 ∧ enc.cHeight = enc.srcPicheight / 2 := by
  obtain ⟨left, top, right, bottom⟩ := even.even
  simp only [Enc.cWidth, Enc.cHeight, sides.format, Rect.half, sides.width, sides.height]
  refine ⟨?_, ?_, trivial, trivial⟩
  · omega
  · omega

theorem saved_length (sides : ForWindow enc window) (even : Even window) (picture : Picture) :
    (picture.saved window).length = enc.frameSize := by
  obtain ⟨width, height, -, -⟩ := sides.halves even
  rw [Picture.saved, List.length_append, List.length_append, cropped_length, cropped_length,
    cropped_length, Enc.frameSize, sides.width, sides.height, width, height]
  omega

/-- What is loaded from the planes in the file is the window of the picture. -/
theorem inSource_of_loaded (sides : ForWindow enc window) (even : Even window)
    {picture : Picture} {mem : Nat → Byte} (loaded : Loaded enc pfb (picture.saved window) mem) :
    InSource enc pfb window picture mem := by
  obtain ⟨width, height, halfWidth, halfHeight⟩ := sides.halves even
  have luma : (cropped picture.y window).length = enc.srcPicwidth * enc.srcPicheight := by
    rw [cropped_length, sides.width, sides.height]
  have chroma : (cropped picture.cb window.half).length = enc.cWidth * enc.cHeight := by
    rw [cropped_length, width, height]
  have saved : picture.saved window =
      cropped picture.y window ++
        (cropped picture.cb window.half ++ cropped picture.cr window.half) := by
    rw [Picture.saved, List.append_assoc]
  rw [saved] at loaded
  have behind (i : Nat) :
      (cropped picture.y window ++ (cropped picture.cb window.half ++
        cropped picture.cr window.half))[enc.srcPicwidth * enc.srcPicheight + i]? =
      (cropped picture.cb window.half ++ cropped picture.cr window.half)[i]? := by
    rw [List.getElem?_append_right (by omega), luma, Nat.add_sub_cancel_left]
  have planes := loaded.planar sides.planar
  simp only [behind] at planes
  refine ⟨?_, ?_, ?_⟩
  · intro r row c column
    have found := loaded.luma r row c column
    have inside := sample_lt row column
    rw [List.getElem?_append_left (by omega), sides.width,
      cropped_get picture.y window (by rwa [← sides.height]) (by rwa [← sides.width])] at found
    exact (Option.some.inj found).symm
  · intro r row c column
    rw [← halfHeight] at row
    rw [← halfWidth] at column
    have found := (planes r row c column).1
    have inside := sample_lt row column
    rw [List.getElem?_append_left (by omega), width,
      cropped_get picture.cb window.half (by rwa [← height]) (by rwa [← width])] at found
    exact (Option.some.inj found).symm
  · intro r row c column
    rw [← halfHeight] at row
    rw [← halfWidth] at column
    have found := (planes r row c column).2
    rw [List.getElem?_append_right (by omega), chroma, Nat.add_sub_cancel_left, width,
      cropped_get picture.cr window.half (by rwa [← height]) (by rwa [← width])] at found
    exact (Option.some.inj found).symm

end Frames

/-! ## The file in one turn and over all turns -/

theorem writeToFile_shot {dec : Decode} (sized : dec.Sized) (linear : dec.linear = true)
    (notMjpg : dec.isMjpg = false) {cropRect : Rect} (ok : cropRect.Ok dec.width dec.height)
    {shot : Shot} (inBuffer : shot.InBuffer dec) :
    writeToFile dec shot.buf shot.fresh [] cropRect =
      shot.picture.saved (cropRect.window dec.width dec.height) := by
  unfold Shot.InBuffer at inBuffer
  cases layout : dec.chromaInterleave with
  | false =>
      rw [layout] at inBuffer
      exact writeToFile_planar sized linear notMjpg ok layout inBuffer shot.fresh []
  | true =>
      rw [layout] at inBuffer
      exact writeToFile_nv12 sized linear notMjpg ok layout inBuffer shot.fresh []

theorem window_even {dec : Decode} (sized : dec.Sized) {cropRect : Rect}
    (ok : cropRect.Ok dec.width dec.height) : Even (cropRect.window dec.width dec.height) := by
  obtain ⟨width, height⟩ := sized.sides
  unfold Rect.window
  split
  · exact ⟨Nat.zero_le _, Nat.zero_le _, rfl, rfl, by simp only; omega, by simp only; omega⟩
  · exact ⟨ok.left, ok.top, ok.even⟩

section Turns
variable {io : Io} {fb pfb : FrameBuf} {enc : Enc} {window : Rect}

/-- One turn takes one picture from the file. -/
theorem readFromFile_picture (allocated : sourceFramebuf io fb enc = some pfb)
    (sides : ForWindow enc window) (even : Even window) (mem : Nat → Byte) {file : File}
    {picture : Picture} {rest : List Byte} (holds : file.bytes = picture.saved window ++ rest) :
    (readFromFile enc pfb ⟨mem, file, 0⟩).file.bytes = rest ∧
      InSource enc pfb window picture (readFromFile enc pfb ⟨mem, file, 0⟩).mem := by
  obtain ⟨left, top, right, bottom⟩ := even.even
  have width := sides.width
  have height := sides.height
  obtain ⟨planeC, layout⟩ := sourceFramebuf_layout (by rw [sides.format]; decide) allocated
  obtain ⟨plan, covers, scattered⟩ :=
    readFromFile_scattered layout (by omega) (by omega) ⟨mem, file, 0⟩
  obtain ⟨after, loaded⟩ := covers.loaded scattered holds (saved_length sides even picture)
  exact ⟨after, inSource_of_loaded sides even loaded⟩

/-- By induction on the pictures: each turn leaves the file at the next one. -/
theorem readFrames_pictures (allocated : sourceFramebuf io fb enc = some pfb)
    (sides : ForWindow enc window) (even : Even window) (pictures : List Picture)
    (mems : List (Nat → Byte)) (turns : mems.length = pictures.length) (file : File)
    (rest : List Byte)
    (holds : file.bytes = (pictures.flatMap fun picture => picture.saved window) ++ rest) :
    (readFrames enc pfb mems file).2.bytes = rest ∧
      List.Forall₂ (InSource enc pfb window) pictures (readFrames enc pfb mems file).1 := by
  induction pictures generalizing mems file with
  | nil =>
      obtain rfl := List.length_eq_zero_iff.mp turns
      exact ⟨holds, .nil⟩
  | cons picture pictures ih =>
      cases mems with
      | nil => cases turns
      | cons mem mems =>
          rw [List.flatMap_cons, List.append_assoc] at holds
          obtain ⟨after, here⟩ := readFromFile_picture allocated sides even mem holds
          obtain ⟨last, others⟩ := ih mems (Nat.succ.inj turns) _ after
          exact ⟨last, .cons here others⟩

end Turns

/-! ## The end of the file -/

structure AtEnd (state : ReadState) : Prop where
  bytes : state.file.bytes = []
  ret : state.ret = 0

theorem AtEnd.freadn {state : ReadState} (ended : AtEnd state) (addr n : Nat) :
    AtEnd (state.freadn addr n) := by
  obtain ⟨got, left⟩ := freadn_spec state.file n
  rw [ended.bytes] at got left
  constructor
  · simp [ReadState.freadn, left]
  · simp [ReadState.freadn, got]

theorem AtEnd.readRows {state : ReadState} (ended : AtEnd state) (stride n rows addr : Nat) :
    AtEnd (readRows stride n rows addr state) := by
  induction rows generalizing addr state with
  | zero => exact ended
  | succ rows ih => exact ih (ended.freadn addr n) _

/-- A turn behind the last picture; with this answer the encoder leaves its loop. -/
theorem AtEnd.readFromFile {state : ReadState} (ended : AtEnd state) (enc : Enc)
    (pfb : FrameBuf) : AtEnd (readFromFile enc pfb state) := by
  unfold ReadFile.readFromFile
  by_cases narrow : enc.srcPicwidth = pfb.strideY
  · simp only [narrow, if_true]
    split
    · exact ended.freadn _ _
    · split
      · exact ((ended.freadn _ _).freadn _ _).freadn _ _
      · exact (ended.freadn _ _).freadn _ _
  · simp only [narrow, if_false]
    split
    · exact ((ended.readRows _ _ _ _).readRows _ _ _ _).readRows _ _ _ _
    · exact (ended.readRows _ _ _ _).readRows _ _ _ _

/-- From a file of decoded pictures, cropped or not, turned or not, from either chroma layout,
the encoder loads each picture in its turn and sample by sample, however `read` cuts the file
into pieces, and finds the end of the file behind the last. -/
theorem decoded_pictures_reencode {dec : Decode} (sized : dec.Sized) (linear : dec.linear = true)
    (notMjpg : dec.isMjpg = false) {cropRect : Rect} (ok : cropRect.Ok dec.width dec.height)
    {shots : List Shot} (inBuffer : ∀ shot ∈ shots, shot.InBuffer dec) {io : Io}
    {fb pfb : FrameBuf} {enc : Enc} (allocated : sourceFramebuf io fb enc = some pfb)
    (sides : ForWindow enc (cropRect.window dec.width dec.height)) (mems : List (Nat → Byte))
    (turns : mems.length = shots.length) (file : File)
    (holds : file.bytes = savedFile dec cropRect shots) :
    List.Forall₂ (fun shot => InSource enc pfb (cropRect.window dec.width dec.height) shot.picture)
        shots (readFrames enc pfb mems file).1 ∧
      ∀ mem, (readFromFile enc pfb ⟨mem, (readFrames enc pfb mems file).2, 0⟩).ret = 0 := by
  have saved : savedFile dec cropRect shots = (shots.map Shot.picture).flatMap fun picture =>
      picture.saved (cropRect.window dec.width dec.height) := by
    rw [savedFile, List.flatMap_map]
    apply List.flatMap_congr
    intro shot member
    exact writeToFile_shot sized linear notMjpg ok (inBuffer shot member)
  rw [saved, ← List.append_nil (List.flatMap _ _)] at holds
  obtain ⟨after, pictures⟩ := readFrames_pictures allocated sides (window_even sized ok)
    (shots.map Shot.picture) mems (by rw [turns, List.length_map]) file [] holds
  constructor
  · exact List.forall₂_map_left_iff.mp pictures
  · intro mem
    have ended : AtEnd ⟨mem, (readFrames enc pfb mems file).2, 0⟩ := ⟨after, rfl⟩
    exact (ended.readFromFile enc pfb).ret

/-- Pictures of 16 by 32 in buffers with pairs. -/
def countingShot : Shot := ⟨countingPicture, countingPairs, fun _ => 0⟩

def plainShot : Shot := ⟨⟨fun _ _ => 1, fun _ _ => 2, fun _ _ => 3⟩,
  fun a => if a < 512 then 1 else if a % 2 = 0 then 2 else 3, fun _ => 0⟩

theorem plainShot_inBuffer : plainShot.InBuffer turnedDecode := by
  have nv12 : Nv12 16 32 plainShot.picture plainShot.buf := by
    refine ⟨?_, ?_, ?_⟩
    · intro r row c column
      exact if_pos (by omega)
    · intro r row c column
      simp only [plainShot]
      rw [if_neg (by omega), if_pos (by omega)]
    · intro r row c column
      simp only [plainShot]
      rw [if_neg (by omega), if_neg (by omega)]
  exact nv12

/-- Four by four samples of each, from a file that gives a byte first. -/
theorem decoded_pictures_reencode_twice :
    ∃ pfb, sourceFramebuf smallIo ⟨0, 0, 0, 0, 0, 0, 0, 0, 0⟩ ⟨4, 4, .mode420, false⟩ = some pfb ∧
      List.Forall₂ (fun shot => InSource ⟨4, 4, .mode420, false⟩ pfb ⟨2, 4, 6, 8⟩ shot.picture)
        [countingShot, plainShot]
        (readFrames ⟨4, 4, .mode420, false⟩ pfb [fun _ => 0, fun _ => 0]
          ⟨savedFile turnedDecode ⟨2, 4, 6, 8⟩ [countingShot, plainShot], [0]⟩).1 := by
  refine ⟨_, rfl, ?_⟩
  have ok : Rect.Ok ⟨2, 4, 6, 8⟩ turnedDecode.width turnedDecode.height :=
    ⟨by decide, by decide, by decide, by decide, by decide⟩
  have inBuffer : ∀ shot ∈ [countingShot, plainShot], shot.InBuffer turnedDecode := by
    intro shot member
    obtain rfl | rfl : shot = countingShot ∨ shot = plainShot := by simpa using member
    · exact countingPairs_nv12
    · exact plainShot_inBuffer
  have allocated : sourceFramebuf smallIo ⟨0, 0, 0, 0, 0, 0, 0, 0, 0⟩ ⟨4, 4, .mode420, false⟩ =
      some _ := rfl
  exact (decoded_pictures_reencode ⟨rfl, rfl, rfl⟩ rfl rfl ok inBuffer allocated
    ⟨rfl, rfl, rfl, rfl⟩ _ rfl _ rfl).1

end ImxTest.Vpu.RawVideo
