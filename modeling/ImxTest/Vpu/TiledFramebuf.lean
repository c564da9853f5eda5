import Mathlib.Data.Set.Disjoint
import Mathlib.Data.Set.Lattice
import Mathlib.Order.CompletePartialOrder
import Mathlib.Algebra.Order.BigOperators.Group.List
import Mathlib.Tactic.Common
import Mathlib.Tactic.Ring
import Mathlib.Algebra.Order.Ring.Int

/-!
# Tiled frame buffers

In the tiled maps a frame buffer has up to four parts, luma and chroma of the frame or of
its two fields.  The VPU gets the page numbers of the four, 20 bits each, in the three
address words of a linear buffer.  `tiled_framebuf_alloc` takes one block of memory for
the parts and packs the words; `tiled_framebuf_base` packs them for a block that is there.

Sizes are `int`s.  Their arithmetic is that of the integers, as it is in C for sizes that
fit; addresses are taken modulo 2^32.
-/

set_option autoImplicit false

namespace ImxTest.Vpu.TiledFramebuf

abbrev Word : Type := BitVec 32

inductive Format where
  | mode420
  | mode422
  | mode224
  | mode444
  | mode400
  deriving DecidableEq, Repr

inductive MapType where
  | frame
  | field
  deriving DecidableEq, Repr

def divX (format : Format) : Int :=
  if format = .mode420 ∨ format = .mode422 then 2 else 1

def divY (format : Format) : Int :=
  if format = .mode420 ∨ format = .mode224 then 2 else 1

/-! ## Sizes and bases -/

/-- `(n + align - 1) & ~(align - 1)` for pages of 4K. -/
def alignUp (n : Int) : Int :=
  n + 4095 - (n + 4095) % 4096

structure Sizes where
  lumaTop : Int
  chromaTop : Int
  lumaBot : Int
  chromaBot : Int
  deriving DecidableEq, Repr

/-- `strideY / divX * height / divY`. -/
def chromaPlane (divX divY strideY height : Int) : Int :=
  (strideY.tdiv divX * height).tdiv divY

def tiledSizes (divX divY strideY height : Int) : MapType → Sizes
  | .frame =>
      { lumaTop := alignUp (strideY * height)
        chromaTop := alignUp (chromaPlane divX divY strideY height * 2)
        lumaBot := 0
        chromaBot := 0 }
  | .field =>
      let lumaTop := alignUp ((strideY * height).tdiv 2)
      let chromaTop := alignUp (chromaPlane divX divY strideY height)
      { lumaTop := lumaTop
        chromaTop := chromaTop
        lumaBot := lumaTop
        chromaBot := chromaTop }

def Sizes.sum (sizes : Sizes) : Int :=
  sizes.lumaTop + sizes.chromaTop + sizes.lumaBot + sizes.chromaBot

structure Bases where
  lumTop : Word
  chrTop : Word
  lumBot : Word
  chrBot : Word
  deriving DecidableEq, Repr

/-- Adding an `int` to a `Uint32`. -/
def plus (address : Word) (n : Int) : Word :=
  address + BitVec.ofInt 32 n

def tiledBases (frameBase : Word) (sizes : Sizes) (mapType : MapType) : Bases :=
  let lumTop := plus frameBase 4095 &&& ~~~ 4095#32
  let chrTop := plus lumTop sizes.lumaTop
  match mapType with
  | .frame => ⟨lumTop, chrTop, 0, 0⟩
  | .field =>
      let lumBot := plus chrTop sizes.chromaTop
      ⟨lumTop, chrTop, lumBot, plus lumBot sizes.lumaBot⟩

/-! ## The three words -/

structure Words where
  y : Word
  cb : Word
  cr : Word
  deriving DecidableEq, Repr

/-- 20bit = addrY [31:12]: lum_top_20bits
20bit = addrY [11: 0], addrCb[31:24]: chr_top_20bits
20bit = addrCb[23: 4]: lum_bot_20bits
20bit = addrCb[ 3: 0], addrCr[31:16]: chr_bot_20bits -/
def pack (bases : Bases) : Words :=
  let lumTop20bits := bases.lumTop >>> 12
  let lumBot20bits := bases.lumBot >>> 12
  let chrTop20bits := bases.chrTop >>> 12
  let chrBot20bits := bases.chrBot >>> 12
  { y := (lumTop20bits <<< 12) + (chrTop20bits >>> 8)
    cb := (chrTop20bits <<< 24) + (lumBot20bits <<< 4) + (chrBot20bits >>> 16)
    cr := chrBot20bits <<< 16 }

def tiledFramebufBase (frameBase : Word) (strideY height : Int) (mapType : MapType) : Words :=
  pack (tiledBases frameBase (tiledSizes 2 2 strideY height mapType) mapType)

structure FrameBuf where
  addr : Words
  strideY : Int
  strideC : Int
  mvColBuf : Word
  descSize : Int
  descPhyAddr : Word
  deriving DecidableEq, Repr

/-- What the memory functions of the VPU library answer: the address of a block of a size,
and whether it can be mapped. -/
structure Io where
  getPhyMem : Int → Option Word
  getVirtMem : Bool

def mvColBase (bases : Bases) (sizes : Sizes) : MapType → Word
  | .frame => plus bases.chrTop sizes.chromaTop
  | .field => plus bases.chrBot sizes.chromaBot

/-- `fb` comes with what its fields held before. -/
def tiledFramebufAlloc (io : Io) (fb : FrameBuf) (format : Format) (strideY height : Int)
    (mvCol : Bool) (mapType : MapType) : Option FrameBuf := do
  let sizes := tiledSizes (divX format) (divY format) strideY height mapType
  let plane := chromaPlane (divX format) (divY format) strideY height
  let size := sizes.sum + 4095 + (if mvCol then plane else 0)
  let phyAddr ← io.getPhyMem size
  if io.getVirtMem = false then none
  else
    let bases := tiledBases phyAddr sizes mapType
    some
      { addr := pack bases
        strideY := strideY
        strideC := strideY.tdiv (divX format)
        mvColBuf := if mvCol then mvColBase bases sizes mapType else fb.mvColBuf
        descSize := size
        descPhyAddr := phyAddr }

/-! ## What the words say -/

/-- The four page numbers in the documented fields. -/
structure Pages where
  lumTop : Nat
  chrTop : Nat
  lumBot : Nat
  chrBot : Nat
  deriving DecidableEq, Repr

def unpack (words : Words) : Pages :=
  { lumTop := words.y.toNat / 2 ^ 12
    chrTop := words.y.toNat % 2 ^ 12 * 2 ^ 8 + words.cb.toNat / 2 ^ 24
    lumBot := words.cb.toNat / 2 ^ 4 % 2 ^ 20
    chrBot := words.cb.toNat % 2 ^ 4 * 2 ^ 16 + words.cr.toNat / 2 ^ 16 }

theorem unpack_pack (bases : Bases) :
    unpack (pack bases) =
      ⟨bases.lumTop.toNat / 4096, bases.chrTop.toNat / 4096, bases.lumBot.toNat / 4096,
        bases.chrBot.toNat / 4096⟩ := by
  have lumTop := bases.lumTop.isLt
  have chrTop := bases.chrTop.isLt
  have lumBot := bases.lumBot.isLt
  have chrBot := bases.chrBot.isLt
  simp only [unpack, pack, BitVec.toNat_add, BitVec.toNat_shiftLeft, BitVec.toNat_ushiftRight,
    Nat.shiftLeft_eq, Nat.shiftRight_eq_div_pow, Pages.mk.injEq]
  refine ⟨?_, ?_, ?_, ?_⟩ <;> omega

structure Pages.Of (pages : Pages) (bases : Bases) : Prop where
  lumTop : pages.lumTop * 4096 = bases.lumTop.toNat
  chrTop : pages.chrTop * 4096 = bases.chrTop.toNat
  lumBot : pages.lumBot * 4096 = bases.lumBot.toNat
  chrBot : pages.chrBot * 4096 = bases.chrBot.toNat

/-! ## Parts of the block -/

def region (start : Nat) (size : Int) : Set Nat :=
  {a | start ≤ a ∧ (a : Int) < start + size}

/-- The bytes of a row of a chroma plane, where a row of luma has `strideY`. -/
def chromaRowBytes (format : Format) (strideY : Int) : Int :=
  match format with
  | .mode420 => strideY / 2
  | .mode422 => strideY / 2
  | .mode224 => strideY
  | .mode444 => strideY
  | .mode400 => 0

/-- Two rows of luma share a row of chroma. -/
def rowsShared (format : Format) : Bool :=
  match format with
  | .mode420 => true
  | .mode422 => false
  | .mode224 => true
  | .mode444 => false
  | .mode400 => false

def chromaRows (format : Format) (height : Int) : Int :=
  if rowsShared format then (height + 1) / 2 else height

/-- The rows of a plane go to the two fields in turn, from the top field on. -/
def topRows (rows : Int) : Int := (rows + 1) / 2

def bottomRows (rows : Int) : Int := rows / 2

/-- The bytes of motion vectors, one for each sample of a chroma plane. -/
def mvColBytes (format : Format) (strideY height : Int) : Int :=
  match format with
  | .mode420 => strideY / 2 * height / 2
  | .mode422 => strideY / 2 * height
  | .mode224 => strideY * height / 2
  | .mode444 => strideY * height
  | .mode400 => strideY * height

/-- One of the parts: its page, its bytes, and the bytes of the rows that it has to hold. -/
structure Part where
  page : Nat
  size : Int
  required : Int

def Part.addresses (part : Part) : Set Nat :=
  region (part.page * 4096) part.size

def parts (format : Format) (strideY height : Int) (mapType : MapType) (words : Words) :
    List Part :=
  let sizes := tiledSizes (divX format) (divY format) strideY height mapType
  let rows := chromaRows format height
  let rowBytes := 2 * chromaRowBytes format strideY
  let pages := unpack words
  match mapType with
  | .frame =>
      [⟨pages.lumTop, sizes.lumaTop, height * strideY⟩,
        ⟨pages.chrTop, sizes.chromaTop, rows * rowBytes⟩]
  | .field =>
      [⟨pages.lumTop, sizes.lumaTop, topRows height * strideY⟩,
        ⟨pages.chrTop, sizes.chromaTop, topRows rows * rowBytes⟩,
        ⟨pages.lumBot, sizes.lumaBot, bottomRows height * strideY⟩,
        ⟨pages.chrBot, sizes.chromaBot, bottomRows rows * rowBytes⟩]

def areas (format : Format) (strideY height : Int) (mvCol : Bool) (mapType : MapType)
    (fb : FrameBuf) : List (Set Nat) :=
  (parts format strideY height mapType fb.addr).map Part.addresses ++
    if mvCol then [region fb.mvColBuf.toNat (mvColBytes format strideY height)] else []

/-- The sides are not negative, the size of the block is an `int`, and the block ends in the
address space. -/
structure Fits (strideY height : Int) (fb : FrameBuf) : Prop where
  stride : 0 ≤ strideY
  height : 0 ≤ height
  size : fb.descSize < 2 ^ 31
  block : (fb.descPhyAddr.toNat : Int) + fb.descSize ≤ 2 ^ 32

/-- What is left of the last page behind so many bytes. -/
def spare (bytes : Int) : Int := -bytes % 4096

/-- The divisions leave out a part of a row or a row where the height is odd, or in the field
map with shared rows no multiple of four; it has to fit into the last page. -/
def RowsFit (format : Format) (strideY height : Int) (mapType : MapType) : Prop :=
  let rowBytes := chromaRowBytes format strideY
  match mapType with
  | .frame =>
      rowsShared format = true → height % 2 = 1 →
        rowBytes + rowBytes % 2 ≤ spare (rowBytes * height / 2 * 2)
  | .field =>
      (height % 2 = 1 → (strideY + 1) / 2 ≤ spare (strideY * height / 2)) ∧
        if rowsShared format then
          height % 4 ≠ 0 →
            2 * rowBytes - rowBytes * (height % 4) / 2 ≤ spare (rowBytes * height / 2)
        else height % 2 = 1 → rowBytes ≤ spare (rowBytes * height)

/-- As the callers round their heights to a multiple of 16. -/
theorem rowsFit_of_whole (format : Format) (strideY : Int) {height : Int}
    (whole : height % 4 = 0) (mapType : MapType) : RowsFit format strideY height mapType := by
  have even : height % 2 ≠ 1 := by omega
  cases mapType with
  | frame => exact fun _ odd => absurd odd even
  | field =>
      refine ⟨fun odd => absurd odd even, ?_⟩
      split
      · exact fun some => absurd whole some
      · exact fun odd => absurd odd even

/-! ## Areas one behind the other -/

/-- An area whose start is taken modulo 2^32 and whose end is not beyond it. -/
theorem region_mod_subset {start : Nat} {size : Int} (fits : (start : Int) + size ≤ 2 ^ 32) :
    region (start % 2 ^ 32) size ⊆ region start size := by
  rintro a ⟨above, below⟩
  constructor <;> omega

/-- Areas of the sizes, the first at `start` and each behind the one before. -/
def Consecutive : Nat → List Int → List (Set Nat) → Prop
  | _, [], areas => areas = []
  | start, size :: sizes, areas =>
      ∃ area rest, areas = area :: rest ∧ area ⊆ region start size ∧
        Consecutive (start + size.toNat) sizes rest

theorem Consecutive.append {sizes others : List Int} {start : Nat} {areas behind : List (Set Nat)}
    (nonneg : ∀ size ∈ sizes, 0 ≤ size) (consecutive : Consecutive start sizes areas)
    (later : Consecutive (start + sizes.sum.toNat) others behind) :
    Consecutive start (sizes ++ others) (areas ++ behind) := by
  induction sizes generalizing start areas with
  | nil =>
      cases consecutive
      exact later
  | cons size sizes ih =>
      obtain ⟨first, rest, rfl, here, next⟩ := consecutive
      have positive := nonneg size List.mem_cons_self
      have more : ∀ size ∈ sizes, 0 ≤ size := fun size member =>
        nonneg size (List.mem_cons_of_mem _ member)
      have sum : 0 ≤ sizes.sum := List.sum_nonneg more
      refine ⟨first, rest ++ behind, rfl, here, ih more next ?_⟩
      have place : start + (size :: sizes).sum.toNat = start + size.toNat + sizes.sum.toNat := by
        rw [List.sum_cons]
        omega
      rwa [place] at later

theorem Consecutive.inside {sizes : List Int} {start : Nat} {areas : List (Set Nat)}
    (nonneg : ∀ size ∈ sizes, 0 ≤ size) (consecutive : Consecutive start sizes areas) :
    ∀ area ∈ areas, area ⊆ region start sizes.sum := by
  induction sizes generalizing start areas with
  | nil =>
      cases consecutive
      intro area member
      cases member
  | cons size sizes ih =>
      obtain ⟨first, rest, rfl, here, later⟩ := consecutive
      have positive := nonneg size List.mem_cons_self
      have others : ∀ size ∈ sizes, 0 ≤ size := fun size member =>
        nonneg size (List.mem_cons_of_mem _ member)
      have sum : 0 ≤ sizes.sum := List.sum_nonneg others
      intro area member a inside
      rw [List.sum_cons]
      rcases List.mem_cons.mp member with rfl | member
      · obtain ⟨above, below⟩ := here inside
        constructor <;> omega
      · obtain ⟨above, below⟩ := ih others later area member inside
        constructor <;> omega

theorem Consecutive.apart {sizes : List Int} {start : Nat} {areas : List (Set Nat)}
    (nonneg : ∀ size ∈ sizes, 0 ≤ size) (consecutive : Consecutive start sizes areas) :
    areas.Pairwise Disjoint := by
  induction sizes generalizing start areas with
  | nil =>
      cases consecutive
      exact List.Pairwise.nil
  | cons size sizes ih =>
      obtain ⟨first, rest, rfl, here, later⟩ := consecutive
      have positive := nonneg size List.mem_cons_self
      have others : ∀ size ∈ sizes, 0 ≤ size := fun size member =>
        nonneg size (List.mem_cons_of_mem _ member)
      refine List.Pairwise.cons ?_ (ih others later)
      intro area member
      rw [Set.disjoint_left]
      intro a inFirst inLater
      obtain ⟨-, below⟩ := here inFirst
      obtain ⟨above, -⟩ := later.inside others area member inLater
      omega

/-! ## Pages -/

theorem alignUp_spec (n : Int) :
    n ≤ alignUp n ∧ alignUp n ≤ n + 4095 ∧ alignUp n % 4096 = 0 := by
  unfold alignUp
  omega

theorem alignUp_eq (n : Int) : alignUp n = n + spare n := by
  unfold alignUp spare
  omega

/-! ### The rows in a part -/

section Rows
variable (width height : Int)

theorem halfRows_fit : topRows height * width ≤ alignUp (width * height / 2) ↔
    (height % 2 = 1 → (width + 1) / 2 ≤ spare (width * height / 2)) := by
  rw [alignUp_eq, topRows]
  rcases Int.emod_two_eq_zero_or_one height with even | odd
  · obtain ⟨k, rfl⟩ : ∃ k, height = 2 * k := ⟨height / 2, by omega⟩
    have rows : (2 * k + 1) / 2 = k := by omega
    have bytes : width * (2 * k) / 2 = k * width := by
      rw [Int.mul_left_comm, Int.mul_ediv_cancel_left _ (by decide), Int.mul_comm]
    have left : 0 ≤ spare (k * width) := Int.emod_nonneg _ (by decide)
    rw [rows, bytes]
    omega
  · obtain ⟨k, rfl⟩ : ∃ k, height = 2 * k + 1 := ⟨height / 2, by omega⟩
    have rows : (2 * k + 1 + 1) / 2 = k + 1 := by omega
    have bytes : width * (2 * k + 1) = 2 * (k * width) + width := by ring
    rw [rows, bytes, Int.add_mul, Int.one_mul]
    generalize k * width = most
    generalize spare _ = left
    omega

theorem sharedRows_fit : (height + 1) / 2 * (2 * width) ≤ alignUp (width * height / 2 * 2) ↔
    (height % 2 = 1 → width + width % 2 ≤ spare (width * height / 2 * 2)) := by
  rw [alignUp_eq]
  rcases Int.emod_two_eq_zero_or_one height with even | odd
  · obtain ⟨k, rfl⟩ : ∃ k, height = 2 * k := ⟨height / 2, by omega⟩
    have rows : (2 * k + 1) / 2 = k := by omega
    have bytes : width * (2 * k) / 2 = k * width := by
      rw [Int.mul_left_comm, Int.mul_ediv_cancel_left _ (by decide), Int.mul_comm]
    have left : 0 ≤ spare (k * width * 2) := Int.emod_nonneg _ (by decide)
    rw [rows, bytes, Int.mul_left_comm, Int.mul_comm 2]
    omega
  · obtain ⟨k, rfl⟩ : ∃ k, height = 2 * k + 1 := ⟨height / 2, by omega⟩
    have rows : (2 * k + 1 + 1) / 2 = k + 1 := by omega
    have bytes : width * (2 * k + 1) = 2 * (k * width) + width := by ring
    have pairs : (k + 1) * (2 * width) = 2 * (k * width) + 2 * width := by ring
    rw [rows, bytes, pairs]
    generalize k * width = most
    generalize spare _ = left
    omega

theorem wholeRows_fit : topRows height * (2 * width) ≤ alignUp (width * height) ↔
    (height % 2 = 1 → width ≤ spare (width * height)) := by
  rw [alignUp_eq, topRows]
  have left : 0 ≤ spare (width * height) := Int.emod_nonneg _ (by decide)
  rcases Int.emod_two_eq_zero_or_one height with even | odd
  · obtain ⟨k, rfl⟩ : ∃ k, height = 2 * k := ⟨height / 2, by omega⟩
    have rows : (2 * k + 1) / 2 = k := by omega
    have bytes : k * (2 * width) = width * (2 * k) := by ring
    rw [rows, bytes]
    omega
  · obtain ⟨k, rfl⟩ : ∃ k, height = 2 * k + 1 := ⟨height / 2, by omega⟩
    have rows : (2 * k + 1 + 1) / 2 = k + 1 := by omega
    have bytes : (k + 1) * (2 * width) = width * (2 * k + 1) + width := by ring
    rw [rows, bytes]
    omega

theorem quarterRows_fit :
    topRows ((height + 1) / 2) * (2 * width) ≤ alignUp (width * height / 2) ↔
      (height % 4 ≠ 0 →
        2 * width - width * (height % 4) / 2 ≤ spare (width * height / 2)) := by
  have left : 0 ≤ spare (width * height / 2) := Int.emod_nonneg _ (by decide)
  have bytes : width * height = 4 * (width * (height / 4)) + width * (height % 4) := by
    have split := Int.mul_ediv_add_emod height 4
    calc width * height = width * (4 * (height / 4) + height % 4) := by rw [split]
      _ = _ := by ring
  have pairs : topRows ((height + 1) / 2) * (2 * width) =
      2 * (width * (height / 4)) + if height % 4 = 0 then 0 else 2 * width := by
    have rows : topRows ((height + 1) / 2) = height / 4 + if height % 4 = 0 then 0 else 1 := by
      unfold topRows
      split <;> omega
    rw [rows]
    split
    · ring
    · ring
  rw [alignUp_eq, pairs]
  generalize spare _ = room at left ⊢
  rw [bytes]
  generalize width * (height / 4) = most
  by_cases whole : height % 4 = 0
  · rw [if_pos whole, whole, Int.mul_zero]
    omega
  · rw [if_neg whole]
    generalize width * (height % 4) = rest
    omega

theorem bottomRows_le (rows : Int) {bytes : Int} (nonneg : 0 ≤ bytes) :
    bottomRows rows * bytes ≤ topRows rows * bytes :=
  Int.mul_le_mul_of_nonneg_right (by unfold bottomRows topRows; omega) nonneg

end Rows

/-- A base that has been found as an address modulo 2^32. -/
def At (base : Word) (address : Nat) : Prop :=
  base.toNat = address % 2 ^ 32

theorem At.plus {base : Word} {address : Nat} (here : At base address) {n : Int}
    (nonneg : 0 ≤ n) : At (plus base n) (address + n.toNat) := by
  unfold At TiledFramebuf.plus at *
  rw [BitVec.toNat_add, BitVec.toNat_ofInt, here]
  omega

theorem and_not_4095 (x : Word) : x &&& ~~~ 4095#32 = (x >>> 12) <<< 12 := by
  apply BitVec.eq_of_getLsbD_eq
  intro i inside
  have low : (4095#32).getLsbD i = decide (i < 12) := by
    rw [BitVec.getLsbD_ofNat, show (4095 : Nat) = 2 ^ 12 - 1 from rfl, Nat.testBit_two_pow_sub_one]
    simp [inside]
  rw [BitVec.getLsbD_and, BitVec.getLsbD_not, low, BitVec.getLsbD_shiftLeft,
    BitVec.getLsbD_ushiftRight]
  by_cases small : i < 12
  · simp [small]
  · simp [small, inside, Nat.add_sub_cancel' (Nat.le_of_not_lt small)]

theorem first_page {frameBase : Word} (fits : frameBase.toNat + 4095 ≤ 2 ^ 32) :
    At (TiledFramebuf.plus frameBase 4095 &&& ~~~ 4095#32) (alignUp frameBase.toNat).toNat := by
  have sum : (TiledFramebuf.plus frameBase 4095).toNat = (frameBase.toNat + 4095) % 2 ^ 32 := by
    rw [TiledFramebuf.plus, BitVec.toNat_add]
    rfl
  unfold At alignUp
  rw [and_not_4095, BitVec.toNat_shiftLeft, BitVec.toNat_ushiftRight, sum, Nat.shiftLeft_eq,
    Nat.shiftRight_eq_div_pow]
  omega

theorem plus_aligned {base : Word} (here : base.toNat % 4096 = 0) {n : Int}
    (whole : n % 4096 = 0) : (TiledFramebuf.plus base n).toNat % 4096 = 0 := by
  rw [TiledFramebuf.plus, BitVec.toNat_add, BitVec.toNat_ofInt]
  omega

/-- The words name the pages of the bases, all of which are page aligned. -/
theorem unpack_of_bases (frameBase : Word) (divX divY strideY height : Int)
    (mapType : MapType) :
    let bases := tiledBases frameBase (tiledSizes divX divY strideY height mapType) mapType
    (unpack (pack bases)).Of bases := by
  have lumTop : (TiledFramebuf.plus frameBase 4095 &&& ~~~ 4095#32).toNat % 4096 = 0 := by
    rw [and_not_4095, BitVec.toNat_shiftLeft, Nat.shiftLeft_eq]
    omega
  have whole (n : Int) : alignUp n % 4096 = 0 := (alignUp_spec n).2.2
  have aligned {base : Word} (here : base.toNat % 4096 = 0) :
      base.toNat / 4096 * 4096 = base.toNat := Nat.div_mul_cancel (Nat.dvd_of_mod_eq_zero here)
  intro bases
  rw [unpack_pack]
  cases mapType with
  | frame =>
      have chrTop := plus_aligned lumTop (whole (strideY * height))
      have unused : (0 : Word).toNat % 4096 = 0 := rfl
      exact ⟨aligned lumTop, aligned chrTop, aligned unused, aligned unused⟩
  | field =>
      have chrTop := plus_aligned lumTop (whole ((strideY * height).tdiv 2))
      have lumBot := plus_aligned chrTop (whole (chromaPlane divX divY strideY height))
      have chrBot := plus_aligned lumBot (whole ((strideY * height).tdiv 2))
      exact ⟨aligned lumTop, aligned chrTop, aligned lumBot, aligned chrBot⟩

theorem page_subset {base : Word} {address : Nat} (here : At base address)
    (aligned : address % 4096 = 0) {size : Int} (fits : (address : Int) + size ≤ 2 ^ 32) :
    region (base.toNat / 4096 * 4096) size ⊆ region address size := by
  have page : base.toNat / 4096 * 4096 = address % 2 ^ 32 := by
    unfold At at here
    omega
  rw [page]
  exact region_mod_subset fits

/-! ## The allocated buffer -/

section Alloc
variable {io : Io} {old fb : FrameBuf} {format : Format} {strideY height : Int} {mvCol : Bool}
  {mapType : MapType}

theorem alloc_cases
    (allocated : tiledFramebufAlloc io old format strideY height mvCol mapType = some fb) :
    let sizes := tiledSizes (divX format) (divY format) strideY height mapType
    let plane := chromaPlane (divX format) (divY format) strideY height
    let bases := tiledBases fb.descPhyAddr sizes mapType
    fb.addr = pack bases ∧
      fb.descSize = sizes.sum + 4095 + (if mvCol then plane else 0) ∧
      (mvCol = true → fb.mvColBuf = mvColBase bases sizes mapType) := by
  simp only [tiledFramebufAlloc, Option.bind_eq_bind, Option.bind_eq_some_iff] at allocated
  obtain ⟨phyAddr, -, allocated⟩ := allocated
  split at allocated
  · cases allocated
  · cases allocated
    exact ⟨rfl, rfl, fun enabled => if_pos enabled⟩

section Sides
variable (stride : 0 ≤ strideY) (rows : 0 ≤ height)
include stride rows

theorem chromaPlane_eq : chromaPlane (divX format) (divY format) strideY height =
    mvColBytes format strideY height := by
  have luma := Int.mul_nonneg stride rows
  have half : 0 ≤ strideY / 2 := Int.ediv_nonneg stride (by decide)
  have chroma := Int.mul_nonneg half rows
  unfold chromaPlane
  cases format with
  | mode420 =>
      change (strideY.tdiv 2 * height).tdiv 2 = strideY / 2 * height / 2
      rw [Int.tdiv_eq_ediv_of_nonneg stride, Int.tdiv_eq_ediv_of_nonneg chroma]
  | mode422 =>
      change (strideY.tdiv 2 * height).tdiv 1 = strideY / 2 * height
      rw [Int.tdiv_eq_ediv_of_nonneg stride, Int.tdiv_one]
  | mode224 =>
      change (strideY.tdiv 1 * height).tdiv 2 = strideY * height / 2
      rw [Int.tdiv_one, Int.tdiv_eq_ediv_of_nonneg luma]
  | mode444 =>
      change (strideY.tdiv 1 * height).tdiv 1 = strideY * height
      rw [Int.tdiv_one, Int.tdiv_one]
  | mode400 =>
      change (strideY.tdiv 1 * height).tdiv 1 = strideY * height
      rw [Int.tdiv_one, Int.tdiv_one]

theorem mvColBytes_nonneg : 0 ≤ mvColBytes format strideY height := by
  have luma := Int.mul_nonneg stride rows
  have half : 0 ≤ strideY / 2 := Int.ediv_nonneg stride (by decide)
  have chroma := Int.mul_nonneg half rows
  cases format with
  | mode420 => exact Int.ediv_nonneg chroma (by decide)
  | mode422 => exact chroma
  | mode224 => exact Int.ediv_nonneg luma (by decide)
  | mode444 => exact luma
  | mode400 => exact luma

theorem chromaFrame_fit :
    chromaRows format height * (2 * chromaRowBytes format strideY) ≤
        alignUp (chromaPlane (divX format) (divY format) strideY height * 2) ↔
      RowsFit format strideY height .frame := by
  have whole (width : Int) : height * (2 * width) ≤ alignUp (width * height * 2) := by
    refine le_of_eq_of_le ?_ (alignUp_spec _).1
    ring
  have luma := Int.mul_nonneg stride rows
  rw [chromaPlane_eq stride rows]
  cases format with
  | mode420 =>
      exact (sharedRows_fit (strideY / 2) height).trans ⟨fun fit _ => fit, fun fit => fit rfl⟩
  | mode422 => exact iff_of_true (whole _) fun shared => absurd shared Bool.false_ne_true
  | mode224 =>
      exact (sharedRows_fit strideY height).trans ⟨fun fit _ => fit, fun fit => fit rfl⟩
  | mode444 => exact iff_of_true (whole _) fun shared => absurd shared Bool.false_ne_true
  | mode400 =>
      have room := (alignUp_spec (strideY * height * 2)).1
      refine iff_of_true ?_ fun shared => absurd shared Bool.false_ne_true
      change height * (2 * 0) ≤ alignUp (strideY * height * 2)
      omega

theorem chromaField_fit :
    topRows (chromaRows format height) * (2 * chromaRowBytes format strideY) ≤
        alignUp (chromaPlane (divX format) (divY format) strideY height) ↔
      if rowsShared format then
        height % 4 ≠ 0 → 2 * chromaRowBytes format strideY -
            chromaRowBytes format strideY * (height % 4) / 2 ≤
          spare (chromaRowBytes format strideY * height / 2)
      else height % 2 = 1 →
        chromaRowBytes format strideY ≤ spare (chromaRowBytes format strideY * height) := by
  have luma := Int.mul_nonneg stride rows
  rw [chromaPlane_eq stride rows]
  cases format with
  | mode420 => exact quarterRows_fit (strideY / 2) height
  | mode422 => exact wholeRows_fit (strideY / 2) height
  | mode224 => exact quarterRows_fit strideY height
  | mode444 => exact wholeRows_fit strideY height
  | mode400 =>
      have room := (alignUp_spec (strideY * height)).1
      refine iff_of_true ?_ fun _ => Int.emod_nonneg _ (by decide)
      change topRows height * (2 * 0) ≤ alignUp (strideY * height)
      omega

omit rows in
theorem chromaRowBytes_nonneg : 0 ≤ 2 * chromaRowBytes format strideY := by
  cases format <;> simp only [chromaRowBytes] <;> omega

/-- Each part holds its rows just when the rows that are left out fit into the last page. -/
theorem parts_required_iff (words : Words) :
    (∀ part ∈ parts format strideY height mapType words, part.required ≤ part.size) ↔
      RowsFit format strideY height mapType := by
  have luma := Int.mul_nonneg stride rows
  cases mapType with
  | frame =>
      have whole := (alignUp_spec (strideY * height)).1
      rw [Int.mul_comm strideY] at whole
      simp only [parts, tiledSizes, List.forall_mem_cons, List.not_mem_nil, false_imp_iff,
        implies_true, and_true]
      rw [chromaFrame_fit stride rows, Int.mul_comm strideY]
      exact and_iff_right whole
  | field =>
      simp only [parts, tiledSizes, List.forall_mem_cons, List.not_mem_nil, false_imp_iff,
        implies_true, and_true, Int.tdiv_eq_ediv_of_nonneg luma]
      have top := halfRows_fit strideY height
      have chroma := @chromaField_fit format _ _ stride rows
      have bottom := bottomRows_le height stride
      have chromaBottom := bottomRows_le (chromaRows format height)
        (@chromaRowBytes_nonneg format _ stride)
      constructor
      · rintro ⟨lumTop, chrTop, -⟩
        exact ⟨top.mp lumTop, chroma.mp chrTop⟩
      · rintro ⟨lumTop, chrTop⟩
        exact ⟨top.mpr lumTop, chroma.mpr chrTop, bottom.trans (top.mpr lumTop),
          chromaBottom.trans (chroma.mpr chrTop)⟩

end Sides

def partSizes (format : Format) (strideY height : Int) (mapType : MapType) : List Int :=
  let sizes := tiledSizes (divX format) (divY format) strideY height mapType
  match mapType with
  | .frame => [sizes.lumaTop, sizes.chromaTop]
  | .field => [sizes.lumaTop, sizes.chromaTop, sizes.lumaBot, sizes.chromaBot]

def mvColSizes (format : Format) (strideY height : Int) (mvCol : Bool) : List Int :=
  if mvCol then [mvColBytes format strideY height] else []

theorem partSizes_nonneg (fits : Fits strideY height fb) :
    ∀ size ∈ partSizes format strideY height mapType, 0 ≤ size := by
  have luma := Int.mul_nonneg fits.stride fits.height
  have chroma : 0 ≤ chromaPlane (divX format) (divY format) strideY height := by
    rw [chromaPlane_eq fits.stride fits.height]
    exact mvColBytes_nonneg fits.stride fits.height
  have whole := alignUp_spec (strideY * height)
  have both := alignUp_spec (chromaPlane (divX format) (divY format) strideY height * 2)
  have half : 0 ≤ (strideY * height).tdiv 2 := Int.tdiv_nonneg luma (by decide)
  have lumaField := alignUp_spec ((strideY * height).tdiv 2)
  have chromaField := alignUp_spec (chromaPlane (divX format) (divY format) strideY height)
  cases mapType <;> simp [partSizes, tiledSizes] <;> omega

theorem mvColSizes_nonneg (fits : Fits strideY height fb) :
    ∀ size ∈ mvColSizes format strideY height mvCol, 0 ≤ size := by
  have chroma := @mvColBytes_nonneg format _ _ fits.stride fits.height
  cases mvCol <;> simp [mvColSizes]
  exact chroma

theorem descSize_eq
    (allocated : tiledFramebufAlloc io old format strideY height mvCol mapType = some fb)
    (fits : Fits strideY height fb) :
    fb.descSize = (partSizes format strideY height mapType).sum +
      (mvColSizes format strideY height mvCol).sum + 4095 := by
  obtain ⟨-, size, -⟩ := alloc_cases allocated
  rw [size, mvColSizes, ← chromaPlane_eq fits.stride fits.height]
  cases mapType <;> cases mvCol <;>
    simp [partSizes, tiledSizes, Sizes.sum] <;> omega

end Alloc

section Placed
variable {format : Format} {strideY height : Int} {mapType : MapType} {frameBase : Word}
  (nonneg : ∀ size ∈ partSizes format strideY height mapType, 0 ≤ size)
  (room : frameBase.toNat + 4095 ≤ 2 ^ 32)
include nonneg room

theorem parts_consecutive
    (fits : alignUp frameBase.toNat + (partSizes format strideY height mapType).sum ≤ 2 ^ 32) :
    Consecutive (alignUp frameBase.toNat).toNat (partSizes format strideY height mapType)
      ((parts format strideY height mapType (pack (tiledBases frameBase
        (tiledSizes (divX format) (divY format) strideY height mapType) mapType))).map
          Part.addresses) := by
  have start := alignUp_spec frameBase.toNat
  have lumTop := first_page room
  have whole := alignUp_spec (strideY * height)
  have both := alignUp_spec (chromaPlane (divX format) (divY format) strideY height * 2)
  have lumaField := alignUp_spec ((strideY * height).tdiv 2)
  have chromaField := alignUp_spec (chromaPlane (divX format) (divY format) strideY height)
  cases mapType with
  | frame =>
      simp [partSizes, tiledSizes] at nonneg fits
      have chrTop := lumTop.plus nonneg.1
      simp only [parts, unpack_pack]
      exact ⟨_, _, rfl, page_subset lumTop (by omega) (by simp only [tiledSizes]; omega),
        _, _, rfl, page_subset chrTop (by omega) (by simp only [tiledSizes]; omega), rfl⟩
  | field =>
      simp [partSizes, tiledSizes] at nonneg fits
      obtain ⟨luma, chroma, -, -⟩ := nonneg
      have chrTop := lumTop.plus luma
      have lumBot := chrTop.plus chroma
      have chrBot := lumBot.plus luma
      simp only [parts, unpack_pack]
      exact ⟨_, _, rfl, page_subset lumTop (by omega) (by simp only [tiledSizes]; omega),
        _, _, rfl, page_subset chrTop (by omega) (by simp only [tiledSizes]; omega),
        _, _, rfl, page_subset lumBot (by omega) (by simp only [tiledSizes]; omega),
        _, _, rfl, page_subset chrBot (by omega) (by simp only [tiledSizes]; omega), rfl⟩

theorem mvColBase_at :
    At (mvColBase (tiledBases frameBase
        (tiledSizes (divX format) (divY format) strideY height mapType) mapType)
        (tiledSizes (divX format) (divY format) strideY height mapType) mapType)
      ((alignUp frameBase.toNat).toNat + (partSizes format strideY height mapType).sum.toNat) := by
  have lumTop := first_page room
  cases mapType with
  | frame =>
      simp [partSizes, tiledSizes] at nonneg ⊢
      obtain ⟨luma, chroma⟩ := nonneg
      have behind := (lumTop.plus luma).plus chroma
      rwa [Nat.add_assoc, ← Int.toNat_add luma chroma] at behind
  | field =>
      simp [partSizes, tiledSizes] at nonneg ⊢
      obtain ⟨luma, chroma, -, -⟩ := nonneg
      have both := Int.add_nonneg luma chroma
      have three := Int.add_nonneg chroma both
      have behind := (((lumTop.plus luma).plus chroma).plus luma).plus chroma
      rwa [Nat.add_assoc, Nat.add_assoc, Nat.add_assoc, ← Int.toNat_add luma chroma,
        ← Int.toNat_add chroma both, ← Int.toNat_add luma three] at behind

end Placed

section Sound
variable {io : Io} {old fb : FrameBuf} {format : Format} {strideY height : Int} {mvCol : Bool}
  {mapType : MapType}

theorem mvCol_consecutive {start : Nat}
    (here : mvCol = true → At fb.mvColBuf start)
    (inside : start + (mvColSizes format strideY height mvCol).sum ≤ 2 ^ 32) :
    Consecutive start (mvColSizes format strideY height mvCol)
      (if mvCol then
        [region fb.mvColBuf.toNat (mvColBytes format strideY height)]
      else []) := by
  cases mvCol with
  | false => rfl
  | true =>
      simp only [mvColSizes, if_pos, List.sum_cons, List.sum_nil, Int.add_zero] at inside
      refine ⟨_, _, rfl, ?_, rfl⟩
      rw [here rfl]
      exact region_mod_subset inside

theorem areas_consecutive
    (allocated : tiledFramebufAlloc io old format strideY height mvCol mapType = some fb)
    (fits : Fits strideY height fb) :
    Consecutive (alignUp fb.descPhyAddr.toNat).toNat
      (partSizes format strideY height mapType ++ mvColSizes format strideY height mvCol)
      (areas format strideY height mvCol mapType fb) := by
  obtain ⟨words, -, mvColBuf⟩ := alloc_cases allocated
  have size := descSize_eq allocated fits
  have block := fits.block
  have nonneg : ∀ size ∈ partSizes format strideY height mapType, 0 ≤ size :=
    partSizes_nonneg fits
  have start := alignUp_spec fb.descPhyAddr.toNat
  have partsSum : 0 ≤ (partSizes format strideY height mapType).sum := List.sum_nonneg nonneg
  have mvColSum : 0 ≤ (mvColSizes format strideY height mvCol).sum :=
    List.sum_nonneg (mvColSizes_nonneg fits)
  have room : fb.descPhyAddr.toNat + 4095 ≤ 2 ^ 32 := by omega
  have placed := parts_consecutive nonneg room (by omega)
  rw [← words] at placed
  refine placed.append nonneg (mvCol_consecutive ?_ (by omega))
  intro enabled
  rw [mvColBuf enabled]
  exact mvColBase_at nonneg room

theorem areas_inside
    (allocated : tiledFramebufAlloc io old format strideY height mvCol mapType = some fb)
    (fits : Fits strideY height fb) :
    ∀ area ∈ areas format strideY height mvCol mapType fb,
      area ⊆ region fb.descPhyAddr.toNat fb.descSize := by
  have size := descSize_eq allocated fits
  have start := alignUp_spec fb.descPhyAddr.toNat
  have nonneg : ∀ size ∈ partSizes format strideY height mapType ++
      mvColSizes format strideY height mvCol, 0 ≤ size :=
    List.forall_mem_append.mpr ⟨partSizes_nonneg fits, mvColSizes_nonneg fits⟩
  intro area member a inside
  obtain ⟨above, below⟩ := (areas_consecutive allocated fits).inside nonneg area member inside
  rw [List.sum_append] at below
  constructor <;> omega

/-- The words of an allocated buffer name the page-aligned parts of it, which do not overlap
and are with the motion vectors inside the block.  Each of them holds its rows just when what
the divisions leave out fits into the last page.  In the 4:2:0 format `tiled_framebuf_base`
gives the same words. -/
theorem tiledFramebufAlloc_sound
    (allocated : tiledFramebufAlloc io old format strideY height mvCol mapType = some fb)
    (fits : Fits strideY height fb) :
    (unpack fb.addr).Of (tiledBases fb.descPhyAddr
        (tiledSizes (divX format) (divY format) strideY height mapType) mapType) ∧
      ((∀ part ∈ parts format strideY height mapType fb.addr, part.required ≤ part.size) ↔
        RowsFit format strideY height mapType) ∧
      (areas format strideY height mvCol mapType fb).Pairwise Disjoint ∧
      (∀ area ∈ areas format strideY height mvCol mapType fb,
        area ⊆ region fb.descPhyAddr.toNat fb.descSize) ∧
      (format = .mode420 →
        tiledFramebufBase fb.descPhyAddr strideY height mapType = fb.addr) := by
  obtain ⟨words, -, -⟩ := alloc_cases allocated
  have nonneg : ∀ size ∈ partSizes format strideY height mapType ++
      mvColSizes format strideY height mvCol, 0 ≤ size :=
    List.forall_mem_append.mpr ⟨partSizes_nonneg fits, mvColSizes_nonneg fits⟩
  refine ⟨?_, parts_required_iff fits.stride fits.height _,
    (areas_consecutive allocated fits).apart nonneg, areas_inside allocated fits, ?_⟩
  · rw [words]
    exact unpack_of_bases fb.descPhyAddr _ _ strideY height mapType
  · rintro rfl
    exact words.symm

/-- A block that does not start on a page. -/
def unalignedIo : Io := ⟨fun _ => some 0x10000010, true⟩

def clearedBuf : FrameBuf := ⟨⟨0, 0, 0⟩, 0, 0, 0, 0, 0⟩

/-- The fields of a small picture. -/
theorem tiledFramebufAlloc_sound_field :
    ∃ fb, tiledFramebufAlloc unalignedIo clearedBuf .mode420 64 64 true .field = some fb ∧
      fb.addr = ⟨0x10001100, 0x02100031, 0x00040000⟩ ∧
      (∀ part ∈ parts .mode420 64 64 .field fb.addr, part.required ≤ part.size) ∧
      (areas .mode420 64 64 true .field fb).Pairwise Disjoint := by
  refine ⟨_, rfl, by decide, ?_⟩
  have sound := @tiledFramebufAlloc_sound unalignedIo clearedBuf _ .mode420 64 64 true .field rfl
    ⟨by decide, by decide, by decide, by decide⟩
  exact ⟨sound.2.1.mpr (rowsFit_of_whole _ _ rfl _), sound.2.2.1⟩

/-- The top field of 341 rows has 171 of them, and bytes for no more than 170 and two thirds. -/
theorem tiledFramebufAlloc_short_field :
    ¬ ∀ (io : Io) (old fb : FrameBuf) (format : Format) (strideY height : Int) (mvCol : Bool)
      (mapType : MapType),
      tiledFramebufAlloc io old format strideY height mvCol mapType = some fb →
        Fits strideY height fb →
          ∀ part ∈ parts format strideY height mapType fb.addr, part.required ≤ part.size := by
  intro always
  have all := always unalignedIo clearedBuf _ .mode420 48 341 false .field rfl
    ⟨by decide, by decide, by decide, by decide⟩
  exact absurd (all _ List.mem_cons_self) (by decide)

end Sound

end ImxTest.Vpu.TiledFramebuf
