import ImxTest.Lib.Scatter
import ImxTest.Vpu.FillBsbuffer
import ImxTest.Vpu.TiledFramebuf

/-!
# `read_from_file`: loading a source frame for the encoder

The source frame is in a buffer whose sides are rounded up to 16.  A file holds the planes
of a frame without gaps, so they are read in one piece, plane by plane or row by row,
whichever the strides and the size of the buffer seem to allow.

Sizes are `int`s; they are those of a block of memory, and do not overflow.
-/

set_option autoImplicit false

namespace ImxTest.Vpu.ReadFile

open ImxTest.Lib.ByteMem
open ImxTest.Lib.Scatter
open ImxTest.Vpu.FillBsbuffer (u32Add u32Sub)
open ImxTest.Vpu.TiledFramebuf (Format)

/-! ## Reading a file -/

/-- A file that can be read: the bytes that are left, and how much more than one byte the
next calls of `read` give.  Calls behind these give all they are asked for. -/
structure File where
  bytes : List Byte
  sizes : List Nat
  deriving DecidableEq, Repr

def File.read (file : File) (n : Nat) : List Byte × File :=
  match file.sizes with
  | [] => (file.bytes.take n, ⟨file.bytes.drop n, []⟩)
  | size :: sizes =>
      (file.bytes.take (min n (size + 1)), ⟨file.bytes.drop (min n (size + 1)), sizes⟩)

def freadnLoop : (passes nleft : Nat) → File → List Byte × File
  | 0, _, file => ([], file)
  | passes + 1, nleft, file =>
      if nleft = 0 then ([], file)
      else
        let nread := file.read nleft
        if nread.1 = [] then ([], nread.2)
        else
          let more := freadnLoop passes (nleft - nread.1.length) nread.2
          (nread.1 ++ more.1, more.2)

/-- `freadn(fd, vptr, n)`: the bytes stored at `vptr`, whose number it returns.  Every pass
of its loop but the last gives a byte at least. -/
def freadn (file : File) (n : Nat) : List Byte × File := freadnLoop n n file

theorem read_spec (file : File) {n : Nat} (wanted : 0 < n) :
    ∃ count, count ≤ n ∧ count ≤ file.bytes.length ∧ (count = 0 → file.bytes = []) ∧
      (file.read n).1 = file.bytes.take count ∧ (file.read n).2.bytes = file.bytes.drop count := by
  have some (count : Nat) (positive : 0 < count) (below : count ≤ n) :
      ∃ count', count' ≤ n ∧ count' ≤ file.bytes.length ∧ (count' = 0 → file.bytes = []) ∧
        file.bytes.take count = file.bytes.take count' ∧
        file.bytes.drop count = file.bytes.drop count' := by
    refine ⟨min count file.bytes.length, by omega, Nat.min_le_right _ _, ?_,
      List.take_eq_take_min, List.drop_eq_drop_min⟩
    intro zero
    exact List.length_eq_zero_iff.mp (by omega)
  unfold File.read
  cases file.sizes with
  | nil => exact some n wanted (Nat.le_refl _)
  | cons size sizes => exact some (min n (size + 1)) (by omega) (Nat.min_le_left _ _)

theorem freadnLoop_spec (passes nleft : Nat) (file : File) (enough : nleft ≤ passes) :
    (freadnLoop passes nleft file).1 = file.bytes.take nleft ∧
      (freadnLoop passes nleft file).2.bytes = file.bytes.drop nleft := by
  induction passes generalizing nleft file with
  | zero =>
      obtain rfl : nleft = 0 := by omega
      simp [freadnLoop]
  | succ passes ih =>
      rw [freadnLoop]
      by_cases done : nleft = 0
      · simp [done]
      rw [if_neg done]
      obtain ⟨count, below, inside, last, got, left⟩ :=
        read_spec file (Nat.pos_of_ne_zero done)
      have length : (file.bytes.take count).length = count := by
        rw [List.length_take, Nat.min_eq_left inside]
      by_cases ended : count = 0
      · simp [got, left, ended, last ended]
      · have more := ih (nleft - count) (file.read nleft).2 (by omega)
        have nonempty : ¬ file.bytes.take count = [] := by
          intro none
          rw [none] at length
          exact ended length.symm
        simp only [got, if_neg nonempty, length]
        rw [more.1, more.2, left, ← List.take_add, List.drop_drop, Nat.add_sub_cancel' below]
        exact ⟨rfl, rfl⟩

theorem freadn_spec (file : File) (n : Nat) :
    (freadn file n).1 = file.bytes.take n ∧ (freadn file n).2.bytes = file.bytes.drop n :=
  freadnLoop_spec n n file (Nat.le_refl n)

/-! ## The buffer -/

def divX (format : Format) : Nat := if format = .mode420 ∨ format = .mode422 then 2 else 1

def divY (format : Format) : Nat := if format = .mode420 ∨ format = .mode224 then 2 else 1

structure FrameBuf where
  addrY : Nat
  addrCb : Nat
  addrCr : Nat
  strideY : Nat
  strideC : Nat
  mvColBuf : Nat
  descSize : Nat
  descPhyAddr : Nat
  descVirtUaddr : Nat
  deriving DecidableEq, Repr

/-- What the memory functions of the VPU library answer for a size: the physical and the
virtual address of a block.  A block that is mapped ends below the top of the address
space. -/
structure Io where
  getPhyMem : Nat → Option Nat
  getVirtMem : Nat → Option Nat
  phyFits : ∀ size addr, getPhyMem size = some addr → addr < 2 ^ 32
  virtFits : ∀ size addr, getVirtMem size = some addr → addr + size < 2 ^ 32

def framebufAlloc (io : Io) (fb : FrameBuf) (format : Format) (strideY height : Nat)
    (mvCol : Bool) : Option FrameBuf := do
  let plane := strideY / divX format * height / divY format
  let size := strideY * height + plane * 2 + if mvCol then plane else 0
  let phyAddr ← io.getPhyMem size
  let addrCb := u32Add phyAddr (strideY * height)
  let addrCr := u32Add addrCb plane
  let virtUaddr ← io.getVirtMem size
  some
    { addrY := phyAddr
      addrCb := addrCb
      addrCr := addrCr
      strideY := strideY
      strideC := strideY / divX format
      mvColBuf := if mvCol then u32Add addrCr plane else fb.mvColBuf
      descSize := size
      descPhyAddr := phyAddr
      descVirtUaddr := virtUaddr }

def roundUp16 (n : Nat) : Nat := (n + 15) / 16 * 16

structure Enc where
  srcPicwidth : Nat
  srcPicheight : Nat
  mjpgFmt : Format
  /-- `chromaInterleave` is not 0. -/
  chromaInterleave : Bool
  deriving DecidableEq, Repr

/-- The frame buffer of the source frame in `encoder_allocate_framebuffer`. -/
def sourceFramebuf (io : Io) (fb : FrameBuf) (enc : Enc) : Option FrameBuf :=
  framebufAlloc io fb enc.mjpgFmt (roundUp16 enc.srcPicwidth) (roundUp16 enc.srcPicheight) false

/-! ## The function -/

structure ReadState where
  mem : Nat → Byte
  file : File
  ret : Int

def ReadState.freadn (state : ReadState) (addr n : Nat) : ReadState :=
  let got := ReadFile.freadn state.file n
  ⟨writeAt state.mem addr got.1, got.2, got.1.length⟩

/-- `rows` turns of a loop that reads a row of `n` bytes and goes on by a stride. -/
def readRows (stride n : Nat) : (rows addr : Nat) → ReadState → ReadState
  | 0, _, state => state
  | rows + 1, addr, state => readRows stride n rows (u32Add addr stride) (state.freadn addr n)

def FrameBuf.virtual (pfb : FrameBuf) (addr : Nat) : Nat :=
  u32Sub (u32Add addr pfb.descVirtUaddr) pfb.descPhyAddr

def readFromFile (enc : Enc) (pfb : FrameBuf) (state : ReadState) : ReadState :=
  let divX := divX enc.mjpgFmt
  let divY := divY enc.mjpgFmt
  let ySize := enc.srcPicwidth * enc.srcPicheight
  let cSize := ySize / divX / divY
  let imgSize := ySize + cSize * 2
  let yAddr := pfb.virtual pfb.addrY
  let uAddr := pfb.virtual pfb.addrCb
  let vAddr := pfb.virtual pfb.addrCr
  if enc.srcPicwidth = pfb.strideY then
    if imgSize = pfb.descSize then state.freadn yAddr imgSize
    else
      let state := state.freadn yAddr ySize
      if enc.chromaInterleave = false then
        (state.freadn uAddr cSize).freadn vAddr cSize
      else state.freadn uAddr (cSize * 2)
  else
    let state := readRows pfb.strideY enc.srcPicwidth enc.srcPicheight yAddr state
    let rows := enc.srcPicheight / divY
    if enc.chromaInterleave = false then
      readRows pfb.strideC (enc.srcPicwidth / divX) rows vAddr
        (readRows pfb.strideC (enc.srcPicwidth / divX) rows uAddr state)
    else readRows (pfb.strideC * 2) (enc.srcPicwidth / divX * 2) rows uAddr state

/-! ## The calls as a plan -/

structure Scattered (plan : List (Nat × Nat)) (state next : ReadState) : Prop where
  mem : next.mem = scatter state.mem plan state.file.bytes
  bytes : next.file.bytes = state.file.bytes.drop (planSize plan)

theorem Scattered.append {first second : List (Nat × Nat)} {state middle next : ReadState}
    (before : Scattered first state middle) (behind : Scattered second middle next) :
    Scattered (first ++ second) state next := by
  constructor
  · rw [behind.mem, before.mem, before.bytes, scatter_append]
  · rw [behind.bytes, before.bytes, List.drop_drop, planSize_append]

theorem freadn_scattered (state : ReadState) (addr n : Nat) :
    Scattered [(addr, n)] state (state.freadn addr n) := by
  obtain ⟨got, left⟩ := freadn_spec state.file n
  constructor
  · simp only [ReadState.freadn, got]
    rfl
  · simp only [ReadState.freadn, left]
    simp

theorem readRows_scattered (stride n rows addr : Nat) (state : ReadState)
    (fits : addr + rows * stride < 2 ^ 32) :
    Scattered (rowPlan addr stride n rows) state (readRows stride n rows addr state) := by
  induction rows generalizing addr state with
  | zero => exact ⟨rfl, rfl⟩
  | succ rows ih =>
      rw [Nat.succ_mul] at fits
      have next : u32Add addr stride = addr + stride := by
        unfold u32Add
        omega
      rw [readRows, next]
      exact (freadn_scattered state addr n).append (ih _ _ (by omega))

/-! ## Where the samples are -/

/-- The columns of a chroma plane in the four formats that have one. -/
def Enc.cWidth (enc : Enc) : Nat :=
  match enc.mjpgFmt with
  | .mode420 => enc.srcPicwidth / 2
  | .mode422 => enc.srcPicwidth / 2
  | .mode224 => enc.srcPicwidth
  | .mode444 => enc.srcPicwidth
  | .mode400 => 0

def Enc.cHeight (enc : Enc) : Nat :=
  match enc.mjpgFmt with
  | .mode420 => enc.srcPicheight / 2
  | .mode422 => enc.srcPicheight
  | .mode224 => enc.srcPicheight / 2
  | .mode444 => enc.srcPicheight
  | .mode400 => 0

def Enc.frameSize (enc : Enc) : Nat :=
  enc.srcPicwidth * enc.srcPicheight + 2 * (enc.cWidth * enc.cHeight)

/-- Sample `(r, c)` of each plane is at `base + r * stride + c`; the chroma planes are one
behind the other in the frame, and in two planes or in one of pairs in the buffer. -/
structure Loaded (enc : Enc) (pfb : FrameBuf) (frame : List Byte) (mem : Nat → Byte) : Prop where
  luma : ∀ r < enc.srcPicheight, ∀ c < enc.srcPicwidth,
    frame[r * enc.srcPicwidth + c]? =
      some (mem (pfb.virtual pfb.addrY + r * pfb.strideY + c))
  planar : enc.chromaInterleave = false → ∀ r < enc.cHeight, ∀ c < enc.cWidth,
    frame[enc.srcPicwidth * enc.srcPicheight + (r * enc.cWidth + c)]? =
        some (mem (pfb.virtual pfb.addrCb + r * pfb.strideC + c)) ∧
      frame[enc.srcPicwidth * enc.srcPicheight +
          (enc.cWidth * enc.cHeight + (r * enc.cWidth + c))]? =
        some (mem (pfb.virtual pfb.addrCr + r * pfb.strideC + c))
  interleaved : enc.chromaInterleave = true → ∀ r < enc.cHeight, ∀ c < enc.cWidth * 2,
    frame[enc.srcPicwidth * enc.srcPicheight + (r * (enc.cWidth * 2) + c)]? =
      some (mem (pfb.virtual pfb.addrCb + r * (2 * pfb.strideC) + c))

/-- The buffer as it lies in memory. -/
structure Layout (enc : Enc) (pfb : FrameBuf) (planeC : Nat) : Prop where
  colour : enc.mjpgFmt ≠ .mode400
  uAddr : pfb.virtual pfb.addrCb =
    pfb.virtual pfb.addrY + pfb.strideY * roundUp16 enc.srcPicheight
  vAddr : pfb.virtual pfb.addrCr = pfb.virtual pfb.addrCb + planeC
  planeC_eq : planeC = pfb.strideC * (roundUp16 enc.srcPicheight / divY enc.mjpgFmt)
  size : pfb.descSize = pfb.strideY * roundUp16 enc.srcPicheight + planeC * 2
  strideY : pfb.strideY = roundUp16 enc.srcPicwidth
  strideC : pfb.strideC = pfb.strideY / divX enc.mjpgFmt
  fits : pfb.virtual pfb.addrY + pfb.descSize < 2 ^ 32

section Divisors
variable (format : Format)

theorem divX_cases : divX format = 1 ∨ divX format = 2 := by
  unfold divX
  split
  · exact .inr rfl
  · exact .inl rfl

theorem divY_cases : divY format = 1 ∨ divY format = 2 := by
  unfold divY
  split
  · exact .inr rfl
  · exact .inl rfl

variable {format}

theorem divX_dvd {n : Nat} (even : n % 2 = 0) : divX format ∣ n := by
  rcases divX_cases format with one | two
  · rw [one]
    exact Nat.one_dvd n
  · rw [two]
    exact Nat.dvd_of_mod_eq_zero even

theorem divY_dvd {n : Nat} (even : n % 2 = 0) : divY format ∣ n := by
  rcases divY_cases format with one | two
  · rw [one]
    exact Nat.one_dvd n
  · rw [two]
    exact Nat.dvd_of_mod_eq_zero even

/-- The two ways in which the code sizes a chroma plane, for even sides. -/
theorem plane_eq {width height : Nat} (evenWidth : width % 2 = 0) (evenHeight : height % 2 = 0) :
    width * height / divX format / divY format =
        width / divX format * (height / divY format) ∧
      width / divX format * height / divY format =
        width / divX format * (height / divY format) := by
  have rows := Nat.mul_div_assoc (width / divX format) (@divY_dvd format height evenHeight)
  refine ⟨?_, rows⟩
  rw [Nat.mul_comm width height, Nat.mul_div_assoc height (divX_dvd evenWidth),
    Nat.mul_comm height, rows]

end Divisors

theorem chroma_eq {enc : Enc} (colour : enc.mjpgFmt ≠ .mode400) :
    enc.srcPicwidth / divX enc.mjpgFmt = enc.cWidth ∧
      enc.srcPicheight / divY enc.mjpgFmt = enc.cHeight := by
  unfold Enc.cWidth Enc.cHeight
  cases format : enc.mjpgFmt with
  | mode420 => exact ⟨rfl, rfl⟩
  | mode422 => exact ⟨rfl, Nat.div_one _⟩
  | mode224 => exact ⟨Nat.div_one _, rfl⟩
  | mode444 => exact ⟨Nat.div_one _, Nat.div_one _⟩
  | mode400 => exact absurd format colour

theorem roundUp16_spec (n : Nat) : n ≤ roundUp16 n ∧ roundUp16 n % 16 = 0 := by
  unfold roundUp16
  omega

theorem sourceFramebuf_layout {io : Io} {fb pfb : FrameBuf} {enc : Enc}
    (colour : enc.mjpgFmt ≠ .mode400) (allocated : sourceFramebuf io fb enc = some pfb) :
    ∃ planeC, Layout enc pfb planeC := by
  have width := roundUp16_spec enc.srcPicwidth
  have height := roundUp16_spec enc.srcPicheight
  have plane := (@plane_eq enc.mjpgFmt (roundUp16 enc.srcPicwidth) (roundUp16 enc.srcPicheight)
    (by omega) (by omega)).2
  simp only [sourceFramebuf, framebufAlloc, Option.bind_eq_bind, Option.bind_eq_some_iff,
    Option.some.injEq] at allocated
  obtain ⟨phyAddr, phy, virtUaddr, virt, rfl⟩ := allocated
  have phyFits := io.phyFits _ _ phy
  have virtFits := io.virtFits _ _ virt
  simp only [Bool.false_eq_true, if_false, Nat.add_zero] at virtFits
  refine ⟨roundUp16 enc.srcPicwidth / divX enc.mjpgFmt * roundUp16 enc.srcPicheight /
    divY enc.mjpgFmt, colour, ?_, ?_, plane, rfl, rfl, rfl, ?_⟩
  · simp only [FrameBuf.virtual, u32Add, u32Sub]
    omega
  · simp only [FrameBuf.virtual, u32Add, u32Sub]
    omega
  · simp only [FrameBuf.virtual, u32Add, u32Sub, Bool.false_eq_true, if_false, Nat.add_zero]
    omega

/-- A plan that puts every sample of a frame to its place. -/
structure Covers (enc : Enc) (pfb : FrameBuf) (plan : List (Nat × Nat)) : Prop where
  ascending : Ascending plan
  size : planSize plan = enc.frameSize
  luma : ∀ r < enc.srcPicheight, ∀ c < enc.srcPicwidth,
    Placed plan (pfb.virtual pfb.addrY + r * pfb.strideY + c) (r * enc.srcPicwidth + c)
  planar : enc.chromaInterleave = false → ∀ r < enc.cHeight, ∀ c < enc.cWidth,
    Placed plan (pfb.virtual pfb.addrCb + r * pfb.strideC + c)
        (enc.srcPicwidth * enc.srcPicheight + (r * enc.cWidth + c)) ∧
      Placed plan (pfb.virtual pfb.addrCr + r * pfb.strideC + c)
        (enc.srcPicwidth * enc.srcPicheight +
          (enc.cWidth * enc.cHeight + (r * enc.cWidth + c)))
  interleaved : enc.chromaInterleave = true → ∀ r < enc.cHeight, ∀ c < enc.cWidth * 2,
    Placed plan (pfb.virtual pfb.addrCb + r * (2 * pfb.strideC) + c)
      (enc.srcPicwidth * enc.srcPicheight + (r * (enc.cWidth * 2) + c))

theorem Covers.loaded {enc : Enc} {pfb : FrameBuf} {plan : List (Nat × Nat)}
    (covers : Covers enc pfb plan) {state next : ReadState} (scattered : Scattered plan state next)
    {frame rest : List Byte} (holds : state.file.bytes = frame ++ rest)
    (whole : frame.length = enc.frameSize) :
    next.file.bytes = rest ∧ Loaded enc pfb frame next.mem := by
  have enough : planSize plan ≤ state.file.bytes.length := by
    rw [holds, covers.size, List.length_append]
    omega
  have sample {addr offset : Nat} (placed : Placed plan addr offset) :
      frame[offset]? = some (next.mem addr) := by
    have inFrame : offset < frame.length := by
      rw [whole, ← covers.size]
      exact placed.lt_planSize
    rw [scattered.mem, ← scatter_placed _ covers.ascending enough placed, holds,
      List.getElem?_append_left inFrame]
  refine ⟨?_, ?_, ?_, ?_⟩
  · rw [scattered.bytes, holds, covers.size, ← whole, List.drop_left]
  · exact fun r row c column => sample (covers.luma r row c column)
  · intro planar r row c column
    obtain ⟨cb, cr⟩ := covers.planar planar r row c column
    exact ⟨sample cb, sample cr⟩
  · exact fun interleaved r row c column => sample (covers.interleaved interleaved r row c column)

/-! ## The three ways to read -/

theorem sample_lt {r c rows width : Nat} (row : r < rows) (column : c < width) :
    r * width + c < width * rows := by
  have next : (r + 1) * width ≤ rows * width := Nat.mul_le_mul_right width row
  rw [Nat.succ_mul] at next
  rw [Nat.mul_comm width rows]
  omega

section Paths
variable {enc : Enc} {pfb : FrameBuf} {planeC : Nat} (layout : Layout enc pfb planeC)
include layout

theorem Layout.sides : enc.srcPicwidth ≤ pfb.strideY ∧ enc.cWidth ≤ pfb.strideC ∧
    enc.cHeight ≤ roundUp16 enc.srcPicheight / divY enc.mjpgFmt := by
  refine ⟨?_, ?_, ?_⟩
  · rw [layout.strideY]
    exact (roundUp16_spec _).1
  · rw [layout.strideC, layout.strideY, ← (chroma_eq layout.colour).1]
    exact Nat.div_le_div_right (roundUp16_spec _).1
  · rw [← (chroma_eq layout.colour).2]
    exact Nat.div_le_div_right (roundUp16_spec _).1

theorem Layout.planes :
    enc.srcPicwidth * enc.srcPicheight ≤ pfb.strideY * roundUp16 enc.srcPicheight ∧
      enc.cWidth * enc.cHeight ≤ planeC := by
  obtain ⟨width, cWidth, cHeight⟩ := layout.sides
  refine ⟨Nat.mul_le_mul width (roundUp16_spec _).1, ?_⟩
  rw [layout.planeC_eq]
  exact Nat.mul_le_mul cWidth cHeight

theorem Layout.rows :
    enc.srcPicheight * pfb.strideY ≤ pfb.strideY * roundUp16 enc.srcPicheight ∧
      enc.cHeight * pfb.strideC ≤ planeC := by
  rw [layout.planeC_eq, Nat.mul_comm enc.srcPicheight, Nat.mul_comm enc.cHeight]
  exact ⟨Nat.mul_le_mul_left _ (roundUp16_spec _).1, Nat.mul_le_mul_left _ layout.sides.2.2⟩

/-- The width is a stride: the rows of the buffer have no gaps. -/
theorem Layout.strideC_of_narrow (narrow : enc.srcPicwidth = pfb.strideY) :
    pfb.strideC = enc.cWidth := by
  rw [layout.strideC, ← narrow, (chroma_eq layout.colour).1]

/-- The whole image at once: the planes of the buffer have no gaps either. -/
theorem whole_covers (narrow : enc.srcPicwidth = pfb.strideY)
    (full : enc.frameSize = pfb.descSize) :
    Covers enc pfb [(pfb.virtual pfb.addrY, enc.frameSize)] := by
  obtain ⟨luma, chroma⟩ := layout.planes
  have size := layout.size
  have uAddr := layout.uAddr
  have vAddr := layout.vAddr
  have strideC := layout.strideC_of_narrow narrow
  have sizes := full
  unfold Enc.frameSize at sizes
  -- no byte of the buffer is left over, so each plane is as large as in the file
  have lumaEq : pfb.strideY * roundUp16 enc.srcPicheight =
      enc.srcPicwidth * enc.srcPicheight := by omega
  have chromaEq : planeC = enc.cWidth * enc.cHeight := by omega
  have placed {addr offset : Nat} (place : addr = pfb.virtual pfb.addrY + offset)
      (inside : offset < enc.frameSize) :
      Placed [(pfb.virtual pfb.addrY, enc.frameSize)] addr offset := .inl ⟨place, inside⟩
  refine ⟨ascending_one _, by simp, ?_, ?_, ?_⟩
  · intro r row c column
    have inside := sample_lt row column
    refine placed (by rw [← narrow]; omega) ?_
    unfold Enc.frameSize
    omega
  · intro _ r row c column
    have inside := sample_lt row column
    rw [strideC]
    constructor
    · refine placed (by omega) ?_
      unfold Enc.frameSize
      omega
    · refine placed (by omega) ?_
      unfold Enc.frameSize
      omega
  · intro _ r row c column
    have inside := sample_lt row column
    have pairs : enc.cWidth * 2 * enc.cHeight = 2 * (enc.cWidth * enc.cHeight) := by
      rw [Nat.mul_comm enc.cWidth 2, Nat.mul_assoc]
    rw [strideC, Nat.mul_comm 2 enc.cWidth]
    refine placed (by omega) ?_
    unfold Enc.frameSize
    omega

theorem planes_covers (narrow : enc.srcPicwidth = pfb.strideY) :
    Covers enc pfb ([(pfb.virtual pfb.addrY, enc.srcPicwidth * enc.srcPicheight)] ++
      if enc.chromaInterleave = false then
        [(pfb.virtual pfb.addrCb, enc.cWidth * enc.cHeight),
          (pfb.virtual pfb.addrCr, enc.cWidth * enc.cHeight)]
      else [(pfb.virtual pfb.addrCb, enc.cWidth * enc.cHeight * 2)]) := by
  obtain ⟨luma, chroma⟩ := layout.planes
  have uAddr := layout.uAddr
  have vAddr := layout.vAddr
  have strideC := layout.strideC_of_narrow narrow
  have rest (plan : List (Nat × Nat)) : ∀ r < enc.srcPicheight, ∀ c < enc.srcPicwidth,
      Placed ([(pfb.virtual pfb.addrY, enc.srcPicwidth * enc.srcPicheight)] ++ plan)
        (pfb.virtual pfb.addrY + r * pfb.strideY + c) (r * enc.srcPicwidth + c) := by
    intro r row c column
    have inside := sample_lt row column
    refine .inl ⟨?_, inside⟩
    rw [← narrow]
    omega
  cases interleave : enc.chromaInterleave with
  | false =>
      refine ⟨?_, ?_, rest _, ?_, ?_⟩
      · simp only [Ascending, List.cons_append, List.nil_append, if_pos, List.pairwise_cons,
          List.mem_cons, List.not_mem_nil, or_false, forall_eq_or_imp, forall_eq]
        refine ⟨⟨by omega, by omega⟩, by omega, by simp⟩
      · simp only [Enc.frameSize, if_pos, planSize_append, planSize_cons, planSize_nil]
        omega
      · intro _ r row c column
        have inside := sample_lt row column
        rw [strideC]
        exact ⟨.inr ⟨_, rfl, .inl ⟨by omega, inside⟩⟩,
          .inr ⟨_, rfl, .inr ⟨_, rfl, .inl ⟨by omega, inside⟩⟩⟩⟩
      · intro other
        rw [interleave] at other
        cases other
  | true =>
      refine ⟨?_, ?_, rest _, ?_, ?_⟩
      · simp only [Ascending, List.cons_append, List.nil_append, Bool.true_eq_false, if_false,
          List.pairwise_cons, List.mem_singleton, forall_eq]
        exact ⟨by omega, by simp⟩
      · simp only [Enc.frameSize, Bool.true_eq_false, if_false, planSize_append, planSize_cons,
          planSize_nil]
        omega
      · intro other
        rw [interleave] at other
        cases other
      · intro _ r row c column
        have inside := sample_lt row column
        rw [strideC, Nat.mul_comm 2 enc.cWidth]
        refine .inr ⟨_, rfl, .inl ⟨by omega, ?_⟩⟩
        rw [Nat.mul_right_comm]
        exact inside

theorem rows_covers :
    Covers enc pfb (rowPlan (pfb.virtual pfb.addrY) pfb.strideY enc.srcPicwidth
        enc.srcPicheight ++
      if enc.chromaInterleave = false then
        rowPlan (pfb.virtual pfb.addrCb) pfb.strideC enc.cWidth enc.cHeight ++
          rowPlan (pfb.virtual pfb.addrCr) pfb.strideC enc.cWidth enc.cHeight
      else
        rowPlan (pfb.virtual pfb.addrCb) (pfb.strideC * 2) (enc.cWidth * 2) enc.cHeight) := by
  obtain ⟨width, cWidth, -⟩ := layout.sides
  have uAddr := layout.uAddr
  have vAddr := layout.vAddr
  obtain ⟨height, plane⟩ := layout.rows
  have lumaWithin : Within (pfb.virtual pfb.addrY) (pfb.virtual pfb.addrCb)
      (rowPlan (pfb.virtual pfb.addrY) pfb.strideY enc.srcPicwidth enc.srcPicheight) :=
    (rowPlan_within width).mono (Nat.le_refl _) (by omega)
  have luma (plan : List (Nat × Nat)) : ∀ r < enc.srcPicheight, ∀ c < enc.srcPicwidth,
      Placed (rowPlan (pfb.virtual pfb.addrY) pfb.strideY enc.srcPicwidth enc.srcPicheight ++ plan)
        (pfb.virtual pfb.addrY + r * pfb.strideY + c) (r * enc.srcPicwidth + c) :=
    fun r row c column => (rowPlan_placed row column).left plan
  have lumaSize : planSize (rowPlan (pfb.virtual pfb.addrY) pfb.strideY enc.srcPicwidth
      enc.srcPicheight) = enc.srcPicwidth * enc.srcPicheight := by
    rw [planSize_rowPlan, Nat.mul_comm]
  cases interleave : enc.chromaInterleave with
  | false =>
      have cbWithin : Within (pfb.virtual pfb.addrCb) (pfb.virtual pfb.addrCr)
          (rowPlan (pfb.virtual pfb.addrCb) pfb.strideC enc.cWidth enc.cHeight) :=
        (rowPlan_within cWidth).mono (Nat.le_refl _) (by omega)
      have crWithin : Within (pfb.virtual pfb.addrCr)
          (pfb.virtual pfb.addrCr + enc.cHeight * pfb.strideC)
          (rowPlan (pfb.virtual pfb.addrCr) pfb.strideC enc.cWidth enc.cHeight) :=
        rowPlan_within cWidth
      have cbSize : planSize (rowPlan (pfb.virtual pfb.addrCb) pfb.strideC enc.cWidth
          enc.cHeight) = enc.cWidth * enc.cHeight := by
        rw [planSize_rowPlan, Nat.mul_comm]
      refine ⟨?_, ?_, luma _, ?_, ?_⟩
      · have chroma := (rowPlan_ascending cWidth).append (rowPlan_ascending cWidth) cbWithin
          crWithin
        have chromaWithin := (cbWithin.mono (Nat.le_refl _)
          (Nat.le_add_right _ (enc.cHeight * pfb.strideC))).append
          (crWithin.mono (by omega) (Nat.le_refl _))
        exact (rowPlan_ascending width).append chroma lumaWithin chromaWithin
      · rw [if_pos rfl, planSize_append, planSize_append, lumaSize, cbSize, planSize_rowPlan,
          Enc.frameSize, Nat.mul_comm enc.cHeight]
        omega
      · intro _ r row c column
        rw [if_pos rfl]
        constructor
        · rw [← lumaSize]
          exact ((rowPlan_placed row column).left _).right _
        · rw [← lumaSize, ← cbSize]
          exact ((rowPlan_placed row column).right _).right _
      · intro other
        rw [interleave] at other
        cases other
  | true =>
      have pairs : enc.cWidth * 2 ≤ pfb.strideC * 2 := Nat.mul_le_mul_right 2 cWidth
      refine ⟨?_, ?_, luma _, ?_, ?_⟩
      · exact (rowPlan_ascending width).append (rowPlan_ascending pairs) lumaWithin
          (rowPlan_within pairs)
      · rw [if_neg (by decide), planSize_append, lumaSize, planSize_rowPlan, Enc.frameSize,
          Nat.mul_comm enc.cHeight, Nat.mul_right_comm]
        omega
      · intro other
        rw [interleave] at other
        cases other
      · intro _ r row c column
        rw [if_neg (by decide), Nat.mul_comm 2 pfb.strideC, ← lumaSize]
        exact (rowPlan_placed row column).right _

/-- Whichever way is taken, the reads are those of a plan that covers the frame. -/
theorem readFromFile_scattered (evenWidth : enc.srcPicwidth % 2 = 0)
    (evenHeight : enc.srcPicheight % 2 = 0) (state : ReadState) :
    ∃ plan, Covers enc pfb plan ∧ Scattered plan state (readFromFile enc pfb state) := by
  obtain ⟨cWidth, cHeight⟩ := chroma_eq layout.colour
  have cSize : enc.srcPicwidth * enc.srcPicheight / divX enc.mjpgFmt / divY enc.mjpgFmt =
      enc.cWidth * enc.cHeight := by
    rw [(plane_eq evenWidth evenHeight).1, cWidth, cHeight]
  have imgSize : enc.srcPicwidth * enc.srcPicheight + enc.cWidth * enc.cHeight * 2 =
      enc.frameSize := by
    rw [Enc.frameSize, Nat.mul_comm 2]
  simp only [readFromFile, cSize, imgSize, cWidth, cHeight]
  by_cases narrow : enc.srcPicwidth = pfb.strideY
  · rw [if_pos narrow]
    by_cases full : enc.frameSize = pfb.descSize
    · rw [if_pos full]
      exact ⟨_, whole_covers layout narrow full, freadn_scattered state _ _⟩
    · rw [if_neg full]
      refine ⟨_, planes_covers layout narrow, (freadn_scattered state _ _).append ?_⟩
      by_cases planar : enc.chromaInterleave = false
      · rw [if_pos planar, if_pos planar]
        exact (freadn_scattered _ _ _).append (freadn_scattered _ _ _)
      · rw [if_neg planar, if_neg planar]
        exact freadn_scattered _ _ _
  · rw [if_neg narrow]
    have fits := layout.fits
    have size := layout.size
    have uAddr := layout.uAddr
    have vAddr := layout.vAddr
    obtain ⟨height, plane⟩ := layout.rows
    refine ⟨_, rows_covers layout, (readRows_scattered _ _ _ _ _ (by omega)).append ?_⟩
    by_cases planar : enc.chromaInterleave = false
    · rw [if_pos planar, if_pos planar]
      exact (readRows_scattered _ _ _ _ _ (show _ + enc.cHeight * _ < _ by omega)).append
        (readRows_scattered _ _ _ _ _ (show _ + enc.cHeight * _ < _ by omega))
    · rw [if_neg planar, if_neg planar]
      refine readRows_scattered _ _ _ _ _ (show _ + enc.cHeight * _ < _ from ?_)
      rw [← Nat.mul_assoc]
      omega

end Paths

/-- A call takes exactly one frame from the file and puts each of its samples to its place
in the buffer, whichever way it reads. -/
theorem readFromFile_loads {io : Io} {fb pfb : FrameBuf} {enc : Enc}
    (colour : enc.mjpgFmt ≠ .mode400) (allocated : sourceFramebuf io fb enc = some pfb) (evenWidth : enc.srcPicwidth % 2 = 0)
    (evenHeight : enc.srcPicheight % 2 = 0) {state : ReadState} {frame rest : List Byte}
    (holds : state.file.bytes = frame ++ rest) (whole : frame.length = enc.frameSize) :
    (readFromFile enc pfb state).file.bytes = rest ∧
      Loaded enc pfb frame (readFromFile enc pfb state).mem := by
  obtain ⟨planeC, layout⟩ := sourceFramebuf_layout colour allocated
  obtain ⟨plan, covers, scattered⟩ :=
    readFromFile_scattered layout evenWidth evenHeight state
  exact covers.loaded scattered holds whole

def smallIo : Io where
  getPhyMem _ := some 0x10000000
  getVirtMem size := if size < 0x10000 then some 0x40000000 else none
  phyFits := by
    rintro size addr ⟨⟩
    decide
  virtFits := by
    intro size addr mapped
    split at mapped
    · cases mapped
      omega
    · cases mapped

/-- A frame whose bytes count up, with one byte behind it, from a file that gives two bytes
first. -/
def counting (enc : Enc) : ReadState :=
  ⟨fun _ => 0, ⟨(List.range enc.frameSize).map UInt8.ofNat ++ [7], [1]⟩, 0⟩

/-- What `readFromFile_loads` says of such a frame. -/
def LoadsCounting (enc : Enc) : Prop :=
  ∃ pfb, sourceFramebuf smallIo ⟨0, 0, 0, 0, 0, 0, 0, 0, 0⟩ enc = some pfb ∧
    (readFromFile enc pfb (counting enc)).file.bytes = [7] ∧
    Loaded enc pfb ((List.range enc.frameSize).map UInt8.ofNat)
      (readFromFile enc pfb (counting enc)).mem

theorem counting_length (enc : Enc) :
    ((List.range enc.frameSize).map UInt8.ofNat).length = enc.frameSize := by
  rw [List.length_map, List.length_range]

/-- Row by row, plane by plane with pairs, and the whole image at once. -/
theorem readFromFile_loads_each :
    LoadsCounting ⟨18, 4, .mode224, false⟩ ∧ LoadsCounting ⟨16, 6, .mode422, true⟩ ∧
      LoadsCounting ⟨16, 16, .mode444, false⟩ := by
  refine ⟨⟨_, rfl, ?_⟩, ⟨_, rfl, ?_⟩, ⟨_, rfl, ?_⟩⟩
  · exact readFromFile_loads (show (Enc.mk 18 4 .mode224 false).mjpgFmt ≠ .mode400 by decide)
      (show sourceFramebuf smallIo _ _ = _ from rfl) rfl rfl rfl (counting_length _)
  · exact readFromFile_loads (show (Enc.mk 16 6 .mode422 true).mjpgFmt ≠ .mode400 by decide)
      (show sourceFramebuf smallIo _ _ = _ from rfl) rfl rfl rfl (counting_length _)
  · exact readFromFile_loads (show (Enc.mk 16 16 .mode444 false).mjpgFmt ≠ .mode400 by decide)
      (show sourceFramebuf smallIo _ _ = _ from rfl) rfl rfl rfl (counting_length _)

end ImxTest.Vpu.ReadFile
