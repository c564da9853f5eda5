import Mathlib.Algebra.Ring.Nat
import ImxTest.Lib.ByteMem
import ImxTest.Lib.Run
import ImxTest.Vpu.Basic

/-!
# `dec_fill_bsbuffer`: filling the decoder's bitstream ring

The function reads from the source straight into the ring memory and tells the
decoder library how many bytes to take.  When the free space passes the end of
the ring it reads twice, up to the end and then from the start.  The library's
ring is modelled as its callers assume it: it reports its pointers and free
space, takes the bytes found at its write pointer, and is drained by the
decoder at any time between two calls.

A run is lossless when the bytes the library took are the bytes that were read.
-/

set_option autoImplicit false

namespace ImxTest.Vpu.FillBsbuffer

open ImxTest.Lib.ByteMem
open ImxTest.Lib.Run

/-! ## The ring of the decoder library -/

/-- The bitstream buffer: its virtual and its physical base.  Both ranges lie
below the top of the address space, as every mapping of the buffer does. -/
structure BsMap where
  vaStart : Nat
  paStart : Nat
  vaFits : vaStart + 2 * streamBufSize ≤ 2 ^ 32
  paFits : paStart + streamBufSize ≤ 2 ^ 32

def BsMap.vaEnd (map : BsMap) : Nat := map.vaStart + streamBufSize

structure DecRing where
  mem : Nat → Byte
  readPos : Nat
  writePos : Nat
  level : Nat
  streamEnd : Bool
  /-- Every byte the library has taken, oldest first. -/
  committed : List Byte

structure DecRing.Wf (ring : DecRing) : Prop where
  writePos_lt : ring.writePos < streamBufSize
  readPos_lt : ring.readPos < streamBufSize
  level_le : ring.level ≤ streamBufSize
  pointers : (ring.readPos + ring.level) % streamBufSize = ring.writePos

def DecRing.space (ring : DecRing) : Nat := streamBufSize - ring.level

def DecRing.update (map : BsMap) (ring : DecRing) (n : Nat) : DecRing :=
  if n = 0 then { ring with streamEnd := true }
  else
    { ring with
      committed := ring.committed ++
        readCyclic ring.mem map.vaStart streamBufSize ring.writePos n
      writePos := (ring.writePos + n) % streamBufSize
      level := ring.level + n }

def DecRing.store (ring : DecRing) (addr : Nat) (bytes : List Byte) : DecRing :=
  { ring with mem := writeAt ring.mem addr bytes }

def DecRing.consume (ring : DecRing) (n : Nat) : DecRing :=
  { ring with
    readPos := (ring.readPos + n) % streamBufSize
    level := ring.level - n }

/-- Whether the two library calls of one fill succeed. -/
structure LibRet where
  getOk : Bool
  updateOk : Bool
  deriving DecidableEq, Repr

/-! ## The function -/

def u32Add (a b : Nat) : Nat := (a + b) % 2 ^ 32

def u32Sub (a b : Nat) : Nat := (a + (2 ^ 32 - b)) % 2 ^ 32

/-- `bs_va_startaddr + (pa_write_ptr - bs_pa_startaddr)`. -/
def targetAddr (map : BsMap) (ring : DecRing) : Nat :=
  u32Add map.vaStart (u32Sub (map.paStart + ring.writePos) map.paStart)

/-- The size to read, or `none` where the function returns 0 before reading. -/
def fillSize (space : Nat) (defaultsize : Int) : Option Nat :=
  if space = 0 then none
  else if 0 < defaultsize then
    if space < defaultsize.toNat then none else some defaultsize.toNat
  else if (space >>> 9) <<< 9 = 0 then none
  else some ((space >>> 9) <<< 9)

inductive ReadCase where
  | leave (ret : Int)
  | eof
  | data
  deriving DecidableEq, Repr

def readCase (nread : Int) : ReadCase :=
  if nread ≤ 0 then
    if nread < 0 then
      if nread = -eagain then .leave 0 else .leave (-1)
    else .eof
  else .data

structure FillOut (Source : Type) where
  ret : Int
  ring : DecRing
  source : Source
  eos : Bool
  fillEndBs : Bool
  /-- The address and the bytes of each `vpu_read`, in order. -/
  stores : List (Nat × List Byte)

def FillOut.taken {Source : Type} (out : FillOut Source) : List Byte :=
  out.stores.flatMap Prod.snd

section Code
variable {Source : Type}

/-- The code from the label `update` on. -/
def fillUpdate (map : BsMap) (lib : LibRet) (ring : DecRing) (source : Source)
    (fillEndBs eos : Bool) (nread : Int) (stores : List (Nat × List Byte)) : FillOut Source :=
  if eos = false then
    if lib.updateOk = false then ⟨-1, ring, source, eos, fillEndBs, stores⟩
    else ⟨nread, ring.update map nread.toNat, source, eos, false, stores⟩
  else if fillEndBs = false then
    if lib.updateOk = false then ⟨-1, ring, source, eos, fillEndBs, stores⟩
    else ⟨nread, ring.update map streamEndSize, source, eos, true, stores⟩
  else ⟨nread, ring, source, eos, fillEndBs, stores⟩

/-- The test of a `vpu_read` result and what follows it; `total` is `nread` with
the bytes of an earlier read of the same call added. -/
def afterRead (map : BsMap) (lib : LibRet) (ring : DecRing) (source : Source)
    (fillEndBs : Bool) (nread total : Int) (stores : List (Nat × List Byte)) :
    FillOut Source :=
  match readCase nread with
  | .leave ret => ⟨ret, ring, source, false, fillEndBs, stores⟩
  | .eof => fillUpdate map lib ring source fillEndBs true total stores
  | .data => fillUpdate map lib ring source fillEndBs false total stores

/-- The second read of the wrap-around path, from the start of the ring. -/
def fillRemaining (vpuRead : VpuRead Source) (map : BsMap) (lib : LibRet) (ring : DecRing)
    (source : Source) (fillEndBs : Bool) (size room : Nat) (first : Int)
    (stores : List (Nat × List Byte)) : FillOut Source :=
  let second := vpuRead.read source (size - room)
  afterRead map lib (ring.store map.vaStart second.1.bytes) second.2 fillEndBs
    second.1.nread (second.1.nread + first) (stores ++ [(map.vaStart, second.1.bytes)])

/-- The path whose size passes the end of the ring: read up to the end first. -/
def fillWrap (vpuRead : VpuRead Source) (map : BsMap) (lib : LibRet) (ring : DecRing)
    (source : Source) (fillEndBs : Bool) (target size : Nat) : FillOut Source :=
  let room := u32Sub map.vaEnd target
  let first := vpuRead.read source room
  let filled := ring.store target first.1.bytes
  let stores := [(target, first.1.bytes)]
  -- a first read that is short, or that fails, is not followed by a second one
  if readCase first.1.nread = .data ∧ first.1.nread = room then
    fillRemaining vpuRead map lib filled first.2 fillEndBs size room first.1.nread stores
  else
    afterRead map lib filled first.2 fillEndBs first.1.nread first.1.nread stores

def fillStraight (vpuRead : VpuRead Source) (map : BsMap) (lib : LibRet) (ring : DecRing)
    (source : Source) (fillEndBs : Bool) (target size : Nat) : FillOut Source :=
  let only := vpuRead.read source size
  afterRead map lib (ring.store target only.1.bytes) only.2 fillEndBs
    only.1.nread only.1.nread [(target, only.1.bytes)]

def decFillBsbuffer (vpuRead : VpuRead Source) (map : BsMap) (lib : LibRet)
    (defaultsize : Int) (ring : DecRing) (source : Source) (fillEndBs : Bool) :
    FillOut Source :=
  if lib.getOk = false then ⟨-1, ring, source, false, fillEndBs, []⟩
  else
    match fillSize ring.space defaultsize with
    | none => ⟨0, ring, source, false, fillEndBs, []⟩
    | some size =>
        let target := targetAddr map ring
        if u32Add target size > map.vaEnd then
          fillWrap vpuRead map lib ring source fillEndBs target size
        else
          fillStraight vpuRead map lib ring source fillEndBs target size

end Code

/-! ## Address arithmetic -/

theorem fillSize_bounds {space size : Nat} {defaultsize : Int}
    (chosen : fillSize space defaultsize = some size) : 0 < size ∧ size ≤ space := by
  unfold fillSize at chosen
  split at chosen
  · cases chosen
  · split at chosen
    · split at chosen
      · cases chosen
      · cases Option.some.inj chosen
        omega
    · split at chosen
      · cases chosen
      · rename_i nonzero
        cases Option.some.inj chosen
        rw [Nat.shiftRight_eq_div_pow, Nat.shiftLeft_eq] at *
        omega

section Positions
variable (map : BsMap) {pos : Nat} (below : pos < streamBufSize)
include below

theorem virtual_eq :
    u32Add map.vaStart (u32Sub (map.paStart + pos) map.paStart) = map.vaStart + pos := by
  have vaFits := map.vaFits
  have paFits := map.paFits
  unfold u32Add u32Sub
  unfold streamBufSize at *
  omega

theorem passes_end_iff (size : Nat) (fits : size ≤ streamBufSize) :
    u32Add (map.vaStart + pos) size > map.vaEnd ↔ streamBufSize < pos + size := by
  have vaFits := map.vaFits
  unfold u32Add BsMap.vaEnd
  unfold streamBufSize at *
  omega

theorem room_eq : u32Sub map.vaEnd (map.vaStart + pos) = streamBufSize - pos := by
  have vaFits := map.vaFits
  unfold u32Sub BsMap.vaEnd
  unfold streamBufSize at *
  omega

end Positions

theorem targetAddr_eq (map : BsMap) (ring : DecRing) (below : ring.writePos < streamBufSize) :
    targetAddr map ring = map.vaStart + ring.writePos :=
  virtual_eq map below

/-! ## What the ring operations keep -/

theorem DecRing.Wf.store {ring : DecRing} (wf : ring.Wf) (addr : Nat) (bytes : List Byte) :
    (ring.store addr bytes).Wf :=
  ⟨wf.writePos_lt, wf.readPos_lt, wf.level_le, wf.pointers⟩

theorem DecRing.Wf.update {ring : DecRing} (wf : ring.Wf) (map : BsMap) (n : Nat)
    (fits : n ≤ ring.space) : (ring.update map n).Wf := by
  unfold DecRing.update
  split
  · exact ⟨wf.writePos_lt, wf.readPos_lt, wf.level_le, wf.pointers⟩
  · have level := wf.level_le
    refine ⟨Nat.mod_lt _ (by decide), wf.readPos_lt, ?_, ?_⟩
    · unfold DecRing.space at fits
      simp only
      omega
    · simp only [← wf.pointers]
      rw [Nat.mod_add_mod, Nat.add_assoc]

theorem DecRing.Wf.consume {ring : DecRing} (wf : ring.Wf) (n : Nat) (fits : n ≤ ring.level) :
    (ring.consume n).Wf := by
  have level := wf.level_le
  refine ⟨wf.writePos_lt, Nat.mod_lt _ (by decide), ?_, ?_⟩
  · simp only [DecRing.consume]
    omega
  · simp only [DecRing.consume, ← wf.pointers]
    rw [Nat.mod_add_mod]
    congr 1
    omega

theorem commit_straight (map : BsMap) (ring : DecRing) (bytes : List Byte)
    (fits : ring.writePos + bytes.length ≤ streamBufSize) :
    ((ring.store (map.vaStart + ring.writePos) bytes).update map bytes.length).committed =
      ring.committed ++ bytes := by
  unfold DecRing.update
  split
  · rename_i empty
    simp [DecRing.store, List.length_eq_zero_iff.mp empty]
  · simp only [DecRing.store]
    rw [readCyclic_straight _ _ _ _ _ fits, readAt_writeAt_same]

/-- Bytes stored up to the end of the ring and from its start, committed as one
run: the second store leaves the first one alone. -/
theorem commit_wrap (map : BsMap) (ring : DecRing) (first second : List Byte)
    (reaches : ring.writePos + first.length = streamBufSize) (nonempty : 0 < first.length)
    (fits : first.length + second.length ≤ streamBufSize) :
    (((ring.store (map.vaStart + ring.writePos) first).store map.vaStart second).update map
      (first.length + second.length)).committed = ring.committed ++ (first ++ second) := by
  have apart : second.length ≤ ring.writePos := by omega
  unfold DecRing.update
  rw [if_neg (by omega)]
  simp only [DecRing.store]
  rw [readCyclic_wrap _ _ _ _ _ _ reaches (by omega), readAt_writeAt_same,
    readAt_writeAt_apart _ _ _ _ _ (by omega), readAt_writeAt_same]

/-! ## Runs -/

structure FillState (Source : Type) where
  ring : DecRing
  source : Source
  fillEndBs : Bool
  /-- Every byte that `vpu_read` has taken from the source, oldest first. -/
  taken : List Byte

inductive FillEvent where
  | fill (defaultsize : Int) (lib : LibRet)
  | consume (n : Nat)
  deriving DecidableEq, Repr

section Runs
variable {Source : Type}

/-- One call that returns at least 0, or consumption by the decoder. -/
def fillStep (vpuRead : VpuRead Source) (map : BsMap) (state : FillState Source) :
    FillEvent → Option (FillState Source)
  | .fill defaultsize lib =>
      let out := decFillBsbuffer vpuRead map lib defaultsize state.ring state.source
        state.fillEndBs
      if out.ret < 0 then none
      else some ⟨out.ring, out.source, out.fillEndBs, state.taken ++ out.taken⟩
  | .consume n =>
      if n ≤ state.ring.level then some { state with ring := state.ring.consume n } else none

def Lossless (state : FillState Source) : Prop := state.ring.committed = state.taken

/-- The size passes the end of the ring, the read up to the end is complete,
and the read from the start of the ring returns 0 or `-EAGAIN`. -/
def SecondReadFails (vpuRead : VpuRead Source) (state : FillState Source) : FillEvent → Prop
  | .consume _ => False
  | .fill defaultsize lib =>
      match fillSize state.ring.space defaultsize with
      | none => False
      | some size =>
          let room := streamBufSize - state.ring.writePos
          let first := vpuRead.read state.source room
          let second := (vpuRead.read first.2 (size - room)).1
          lib.getOk = true ∧ streamBufSize < state.ring.writePos + size ∧
            first.1.nread = room ∧ (second.nread = 0 ∨ second.nread = -eagain)

theorem fillUpdate_eof (map : BsMap) (lib : LibRet) (ring : DecRing) (source : Source)
    (fillEndBs : Bool) (nread : Int) (stores : List (Nat × List Byte)) (wf : ring.Wf) :
    let out := fillUpdate map lib ring source fillEndBs true nread stores
    out.ring.committed = ring.committed ∧ out.stores = stores ∧ out.ring.Wf := by
  have ended : (ring.update map streamEndSize).Wf := wf.update map _ (Nat.zero_le _)
  simp only [fillUpdate, Bool.true_eq_false, if_false]
  split
  · split
    · exact ⟨rfl, rfl, wf⟩
    · exact ⟨rfl, rfl, ended⟩
  · exact ⟨rfl, rfl, wf⟩

theorem fillUpdate_data (map : BsMap) (lib : LibRet) (ring : DecRing) (source : Source)
    (fillEndBs : Bool) (nread : Int) (stores : List (Nat × List Byte))
    (accepted : 0 ≤ (fillUpdate map lib ring source fillEndBs false nread stores).ret) :
    (fillUpdate map lib ring source fillEndBs false nread stores).ring =
      ring.update map nread.toNat ∧
    (fillUpdate map lib ring source fillEndBs false nread stores).stores = stores := by
  simp only [fillUpdate, if_true] at accepted ⊢
  split at accepted
  · simp at accepted
  · rename_i updated
    simp [updated]

theorem readCase_leave {nread ret : Int} (leaves : readCase nread = .leave ret)
    (accepted : 0 ≤ ret) : nread = -eagain ∧ ret = 0 := by
  unfold readCase at leaves
  split at leaves
  · split at leaves
    · split at leaves
      · rename_i again
        exact ⟨again, (ReadCase.leave.inj leaves).symm⟩
      · have := ReadCase.leave.inj leaves
        omega
    · cases leaves
  · cases leaves

theorem readCase_eof {nread : Int} (ends : readCase nread = .eof) : nread = 0 := by
  unfold readCase at ends
  split at ends
  · split at ends
    · split at ends <;> cases ends
    · omega
  · cases ends

theorem readCase_data {nread : Int} (data : readCase nread = .data) : 0 < nread := by
  unfold readCase at data
  split at data
  · split at data
    · split at data <;> cases data
    · cases data
  · omega

/-- Everything a fill that returns at least 0 does to the ring: it commits what
it read, unless `lost` holds, when it commits nothing of a non-empty read. -/
structure FillSpec (ring : DecRing) (out : FillOut Source) (lost : Prop) : Prop where
  wf : out.ring.Wf
  commits : ¬ lost → out.ring.committed = ring.committed ++ out.taken
  drops : lost → out.ring.committed = ring.committed ∧ out.taken ≠ []

theorem FillSpec.of_commits {ring : DecRing} {out : FillOut Source} {lost : Prop}
    (kept : ¬ lost) (wf : out.ring.Wf)
    (commits : out.ring.committed = ring.committed ++ out.taken) : FillSpec ring out lost :=
  ⟨wf, fun _ => commits, fun absurdity => absurd absurdity kept⟩

theorem afterRead_single (map : BsMap) (lib : LibRet) (ring : DecRing) (source : Source)
    (fillEndBs : Bool) (n : Nat) (answer : ReadResult) (lost : Prop)
    (contract : ReadContract n answer) (kept : ¬ lost) (wf : ring.Wf)
    (inside : ring.writePos + n ≤ streamBufSize) (free : n ≤ ring.space)
    (out : FillOut Source)
    (result : out = afterRead map lib (ring.store (map.vaStart + ring.writePos) answer.bytes)
      source fillEndBs answer.nread answer.nread
      [(map.vaStart + ring.writePos, answer.bytes)])
    (accepted : 0 ≤ out.ret) : FillSpec ring out lost := by
  obtain ⟨short, counted, again⟩ := contract
  unfold afterRead at result
  cases outcome : readCase answer.nread with
  | leave ret =>
      simp only [outcome] at result
      subst result
      obtain ⟨isAgain, _⟩ := readCase_leave outcome accepted
      apply FillSpec.of_commits kept (wf.store _ _)
      simp [FillOut.taken, DecRing.store, again isAgain]
  | eof =>
      simp only [outcome] at result
      subst result
      have zero := readCase_eof outcome
      have empty : answer.bytes = [] := by
        apply List.length_eq_zero_iff.mp
        have := counted (by omega)
        omega
      obtain ⟨same, stores, outWf⟩ := fillUpdate_eof map lib
        (ring.store (map.vaStart + ring.writePos) answer.bytes) source fillEndBs answer.nread
        [(map.vaStart + ring.writePos, answer.bytes)] (wf.store _ _)
      apply FillSpec.of_commits kept outWf
      rw [same, FillOut.taken, stores]
      simp [DecRing.store, empty]
  | data =>
      simp only [outcome] at result
      subst result
      have positive := readCase_data outcome
      have count : answer.nread.toNat = answer.bytes.length := by
        have := counted (by omega)
        omega
      have free' : answer.bytes.length ≤ ring.space := by omega
      obtain ⟨ringEq, stores⟩ := fillUpdate_data map lib _ _ _ _ _ accepted
      apply FillSpec.of_commits kept
      · rw [ringEq, count]
        exact (wf.store _ _).update map _ free'
      · rw [ringEq, count, FillOut.taken, stores]
        simpa using commit_straight map ring answer.bytes (by omega)

/-- The read from the start of the ring, after a read that reached its end: it
commits both reads, unless it returns 0 or `-EAGAIN`, when the bytes of the first
one stay uncommitted. -/
theorem afterRead_second (map : BsMap) (lib : LibRet) (ring : DecRing) (source : Source)
    (fillEndBs : Bool) (n : Nat) (first : List Byte) (answer : ReadResult)
    (contract : ReadContract n answer) (wf : ring.Wf)
    (reaches : ring.writePos + first.length = streamBufSize) (nonempty : 0 < first.length)
    (free : first.length + n ≤ ring.space) (out : FillOut Source)
    (result : out = afterRead map lib
      ((ring.store (map.vaStart + ring.writePos) first).store map.vaStart answer.bytes)
      source fillEndBs answer.nread (answer.nread + first.length)
      [(map.vaStart + ring.writePos, first), (map.vaStart, answer.bytes)])
    (accepted : 0 ≤ out.ret) :
    FillSpec ring out (answer.nread = 0 ∨ answer.nread = -eagain) := by
  obtain ⟨short, counted, again⟩ := contract
  have stored : ((ring.store (map.vaStart + ring.writePos) first).store map.vaStart
      answer.bytes).Wf := (wf.store _ _).store _ _
  have firstRead : first ≠ [] := List.ne_nil_of_length_pos nonempty
  unfold afterRead at result
  cases outcome : readCase answer.nread with
  | leave ret =>
      simp only [outcome] at result
      subst result
      obtain ⟨isAgain, _⟩ := readCase_leave outcome accepted
      refine ⟨stored, fun kept => absurd (Or.inr isAgain) kept, fun _ => ⟨rfl, ?_⟩⟩
      simp [FillOut.taken, firstRead]
  | eof =>
      simp only [outcome] at result
      subst result
      have zero := readCase_eof outcome
      obtain ⟨same, stores, outWf⟩ := fillUpdate_eof map lib
        ((ring.store (map.vaStart + ring.writePos) first).store map.vaStart answer.bytes)
        source fillEndBs (answer.nread + first.length)
        [(map.vaStart + ring.writePos, first), (map.vaStart, answer.bytes)] stored
      refine ⟨outWf, fun kept => absurd (Or.inl zero) kept, fun _ => ⟨same, ?_⟩⟩
      rw [FillOut.taken, stores]
      simp [firstRead]
  | data =>
      simp only [outcome] at result
      subst result
      have positive := readCase_data outcome
      have notLost : ¬ (answer.nread = 0 ∨ answer.nread = -eagain) := by
        unfold eagain
        omega
      have count : (answer.nread + first.length).toNat =
          first.length + answer.bytes.length := by
        have := counted (by omega)
        omega
      have free' : first.length + answer.bytes.length ≤ ring.space := by omega
      have level : ring.space ≤ streamBufSize := Nat.sub_le _ _
      obtain ⟨ringEq, stores⟩ := fillUpdate_data map lib _ _ _ _ _ accepted
      apply FillSpec.of_commits notLost
      · rw [ringEq, count]
        exact stored.update map _ free'
      · rw [ringEq, count, FillOut.taken, stores]
        simpa using commit_wrap map ring first answer.bytes reaches nonempty (by omega)

theorem fillWrap_spec (vpuRead : VpuRead Source) (map : BsMap) (lib : LibRet)
    (ring : DecRing) (source : Source) (fillEndBs : Bool) (size room : Nat) (wf : ring.Wf)
    (reaches : ring.writePos + room = streamBufSize) (wraps : room < size)
    (free : size ≤ ring.space) (out : FillOut Source)
    (result : out = fillWrap vpuRead map lib ring source fillEndBs
      (map.vaStart + ring.writePos) size)
    (accepted : 0 ≤ out.ret) :
    FillSpec ring out ((vpuRead.read source room).1.nread = room ∧
      ((vpuRead.read (vpuRead.read source room).2 (size - room)).1.nread = 0 ∨
        (vpuRead.read (vpuRead.read source room).2 (size - room)).1.nread = -eagain)) := by
  have below := wf.writePos_lt
  have roomEq : u32Sub map.vaEnd (map.vaStart + ring.writePos) = room := by
    rw [room_eq map below]
    omega
  have contract := vpuRead.contract source room
  simp only [fillWrap, roomEq] at result
  by_cases full : (vpuRead.read source room).1.nread = (room : Int)
  · -- the first read reached the end of the ring, so the second one is made
    have data : readCase (vpuRead.read source room).1.nread = .data := by
      rw [full, readCase, if_neg (by omega)]
    have firstLength : (vpuRead.read source room).1.bytes.length = room := by
      have := contract.2.1 (by omega)
      omega
    rw [if_pos ⟨data, full⟩, fillRemaining, full] at result
    simp only [full, true_and]
    exact afterRead_second map lib ring _ fillEndBs (size - room)
      (vpuRead.read source room).1.bytes _ (vpuRead.contract _ _) wf (by omega) (by omega)
      (by omega) out (by rw [result, firstLength]; rfl) accepted
  · rw [if_neg (fun both => full both.2)] at result
    exact afterRead_single map lib ring _ fillEndBs room _ _ contract
      (fun both => full both.1) wf (by omega) (by omega) out result accepted

theorem decFillBsbuffer_spec (vpuRead : VpuRead Source) (map : BsMap) (lib : LibRet)
    (defaultsize : Int) (state : FillState Source) (wf : state.ring.Wf) (out : FillOut Source)
    (result : out = decFillBsbuffer vpuRead map lib defaultsize state.ring state.source
      state.fillEndBs)
    (accepted : 0 ≤ out.ret) :
    FillSpec state.ring out (SecondReadFails vpuRead state (.fill defaultsize lib)) := by
  have below := wf.writePos_lt
  unfold decFillBsbuffer at result
  split at result
  · subst result
    simp at accepted
  · rename_i notFailed
    have got : lib.getOk = true := by simpa using notFailed
    cases chosen : fillSize state.ring.space defaultsize with
    | none =>
        simp only [chosen] at result
        subst result
        refine FillSpec.of_commits (by simp [SecondReadFails, chosen]) wf ?_
        simp [FillOut.taken]
    | some size =>
        simp only [chosen, targetAddr_eq map state.ring below] at result
        obtain ⟨positive, free⟩ := fillSize_bounds chosen
        have passes := passes_end_iff map below size
          (Nat.le_trans free (Nat.sub_le _ _))
        by_cases wraps : streamBufSize < state.ring.writePos + size
        · rw [if_pos (passes.mpr wraps)] at result
          have spec := fillWrap_spec vpuRead map lib state.ring state.source state.fillEndBs
            size (streamBufSize - state.ring.writePos) wf (by omega) (by omega) free out
            result accepted
          simpa only [SecondReadFails, chosen, got, wraps, true_and] using spec
        · rw [if_neg (fun more => wraps (passes.mp more))] at result
          have lost : ¬ SecondReadFails vpuRead state (.fill defaultsize lib) := by
            simp [SecondReadFails, chosen, wraps]
          exact afterRead_single map lib state.ring _ state.fillEndBs size _ _
            (vpuRead.contract _ _) lost wf (by omega) free out result accepted

theorem fillStep_cases (vpuRead : VpuRead Source) (map : BsMap) (state next : FillState Source)
    (event : FillEvent) (step : fillStep vpuRead map state event = some next) :
    (∃ defaultsize lib out, event = .fill defaultsize lib ∧
      out = decFillBsbuffer vpuRead map lib defaultsize state.ring state.source
        state.fillEndBs ∧
      0 ≤ out.ret ∧ next = ⟨out.ring, out.source, out.fillEndBs, state.taken ++ out.taken⟩) ∨
    (∃ n, event = .consume n ∧ n ≤ state.ring.level ∧
      next = { state with ring := state.ring.consume n }) := by
  cases event with
  | fill defaultsize lib =>
      simp only [fillStep] at step
      split at step
      · cases step
      · rename_i accepted
        exact .inl ⟨defaultsize, lib, _, rfl, rfl, by omega, (Option.some.inj step).symm⟩
  | consume n =>
      simp only [fillStep] at step
      split at step
      · rename_i fits
        exact .inr ⟨n, rfl, fits, (Option.some.inj step).symm⟩
      · cases step

theorem fillStep_wf (vpuRead : VpuRead Source) (map : BsMap) (state : FillState Source)
    (event : FillEvent) (next : FillState Source) (wf : state.ring.Wf)
    (step : fillStep vpuRead map state event = some next) : next.ring.Wf := by
  obtain ⟨defaultsize, lib, out, rfl, result, accepted, rfl⟩ | ⟨n, rfl, fits, rfl⟩ :=
    fillStep_cases vpuRead map state next event step
  · exact (decFillBsbuffer_spec vpuRead map lib defaultsize state wf out result accepted).wf
  · exact wf.consume n fits

theorem fillStep_lossless_iff (vpuRead : VpuRead Source) (map : BsMap)
    (state : FillState Source) (event : FillEvent) (next : FillState Source)
    (wf : state.ring.Wf) (lossless : Lossless state)
    (step : fillStep vpuRead map state event = some next) :
    Lossless next ↔ ¬ SecondReadFails vpuRead state event := by
  unfold Lossless at lossless ⊢
  obtain ⟨defaultsize, lib, out, rfl, result, accepted, rfl⟩ | ⟨n, rfl, fits, rfl⟩ :=
    fillStep_cases vpuRead map state next event step
  · have spec := decFillBsbuffer_spec vpuRead map lib defaultsize state wf out result accepted
    constructor
    · intro same lost
      obtain ⟨kept, some⟩ := spec.drops lost
      rw [kept, lossless] at same
      exact some (List.self_eq_append_right.mp same)
    · intro kept
      rw [spec.commits kept, lossless]
  · simpa [SecondReadFails, DecRing.consume] using lossless

/-- In a run of calls that return at least 0, with any consumption in between,
the committed bytes are the bytes read at every point exactly when no wrapping
fill has its second read end with 0 or `-EAGAIN`. -/
theorem decFillBsbuffer_lossless_iff (vpuRead : VpuRead Source) (map : BsMap)
    (events : List FillEvent) (start : FillState Source) (wf : start.ring.Wf)
    (initial : Lossless start) :
    Throughout (fillStep vpuRead map) Lossless events start ↔
      StepsMeet (fillStep vpuRead map)
        (fun state event => ¬ SecondReadFails vpuRead state event) events start :=
  throughout_iff_stepsMeet (fillStep_wf vpuRead map) (fillStep_lossless_iff vpuRead map)
    events start wf initial

end Runs

/-! ## A run that loses bytes -/

def lowMap : BsMap := ⟨0, 0, by decide, by decide⟩

def emptyRing : DecRing := ⟨fun _ => 0, 0, 0, 0, false, []⟩

theorem emptyRing_wf : emptyRing.Wf := ⟨by decide, by decide, by decide, by decide⟩

def libOk : LibRet := ⟨true, true⟩

def freshState (script : List ReadResult) : FillState (List ReadResult) :=
  ⟨emptyRing, script, false, []⟩

theorem decFillBsbuffer_lossless_iff_fresh :
    emptyRing.Wf ∧ Lossless (freshState [⟨2, [1, 2]⟩]) ∧
      (Throughout (fillStep scriptedRead lowMap) Lossless [.fill 2 libOk]
          (freshState [⟨2, [1, 2]⟩]) ↔
        StepsMeet (fillStep scriptedRead lowMap)
          (fun state event => ¬ SecondReadFails scriptedRead state event) [.fill 2 libOk]
          (freshState [⟨2, [1, 2]⟩])) :=
  ⟨emptyRing_wf, rfl,
    decFillBsbuffer_lossless_iff scriptedRead lowMap [.fill 2 libOk]
      (freshState [⟨2, [1, 2]⟩]) emptyRing_wf rfl⟩

/-- Two bytes short of the end, two bytes come and then end of input: the call
returns 2 although it commits nothing. -/
theorem fill_at_end_returns (ring : DecRing) (wf : ring.Wf) (empty : ring.level = 0)
    (position : ring.writePos + 2 = streamBufSize) :
    (decFillBsbuffer scriptedRead lowMap libOk 4 ring [⟨2, [1, 2]⟩] false).ret = 2 := by
  have size : fillSize ring.space 4 = some 4 := by
    rw [DecRing.space, empty]
    decide
  have wraps : u32Add (lowMap.vaStart + ring.writePos) 4 > lowMap.vaEnd :=
    (passes_end_iff lowMap wf.writePos_lt 4 (by decide)).mpr (by omega)
  have room : u32Sub lowMap.vaEnd (lowMap.vaStart + ring.writePos) = 2 := by
    rw [room_eq lowMap wf.writePos_lt]
    omega
  simp only [decFillBsbuffer, libOk, size, targetAddr_eq lowMap ring wf.writePos_lt,
    if_pos wraps, fillWrap, room]
  simp [scriptedRead, ReadContract, eagain, readCase, fillRemaining, afterRead, fillUpdate]

section Losing
variable (k : Nat) (long : List Byte)

/-- `k` bytes from the start of the ring, then two bytes, then end of input. -/
def losingScript : List ReadResult := [⟨k, long⟩, ⟨2, [1, 2]⟩]

def losingRun : List FillEvent := [.fill k libOk, .consume k, .fill 4 libOk]

def afterLongFill : FillState (List ReadResult) :=
  ⟨(emptyRing.store 0 long).update lowMap k, [⟨2, [1, 2]⟩], false, long⟩

def afterDrain : FillState (List ReadResult) :=
  { afterLongFill k long with ring := (afterLongFill k long).ring.consume k }

variable (leaves : k + 2 = streamBufSize) (counted : long.length = k)
include leaves

theorem afterDrain_ring :
    (afterDrain k long).ring.writePos = k ∧ (afterDrain k long).ring.level = 0 := by
  have nonzero : k ≠ 0 := by
    unfold streamBufSize at leaves
    omega
  simp only [afterDrain, afterLongFill, DecRing.update, if_neg nonzero, DecRing.consume,
    DecRing.store, emptyRing]
  exact ⟨by rw [Nat.mod_eq_of_lt] <;> omega, by omega⟩

theorem afterDrain_wf : (afterDrain k long).ring.Wf := by
  have wf := (emptyRing_wf.store 0 long).update lowMap k
    (by show k ≤ streamBufSize - 0; omega)
  have nonzero : k ≠ 0 := by
    unfold streamBufSize at leaves
    omega
  refine wf.consume k ?_
  simp [DecRing.update, nonzero]

theorem losingRun_accepts :
    ∃ last, fillStep scriptedRead lowMap (afterDrain k long) (.fill 4 libOk) = some last := by
  obtain ⟨position, level⟩ := afterDrain_ring k long leaves
  have returns := fill_at_end_returns (afterDrain k long).ring (afterDrain_wf k long leaves)
    level (by omega)
  have state : (afterDrain k long).source = [⟨2, [1, 2]⟩] ∧
      (afterDrain k long).fillEndBs = false := ⟨rfl, rfl⟩
  simp only [fillStep, state.1, state.2, returns]
  exact ⟨_, if_neg (by decide)⟩

theorem losingRun_drains :
    fillStep scriptedRead lowMap (afterLongFill k long) (.consume k) =
      some (afterDrain k long) := by
  have nonzero : k ≠ 0 := by
    unfold streamBufSize at leaves
    omega
  simp [fillStep, afterDrain, afterLongFill, DecRing.update, DecRing.store, emptyRing, nonzero]

theorem losingRun_fails :
    SecondReadFails scriptedRead (afterDrain k long) (.fill 4 libOk) := by
  obtain ⟨position, level⟩ := afterDrain_ring k long leaves
  have room : streamBufSize - k = 2 := by omega
  have size : fillSize streamBufSize 4 = some 4 := by decide
  have source : (afterDrain k long).source = [⟨2, [1, 2]⟩] := rfl
  simp only [SecondReadFails, DecRing.space, position, level, Nat.sub_zero, size, room, source,
    libOk]
  refine ⟨trivial, by omega, ?_⟩
  decide

include counted

theorem losingRun_fills :
    fillStep scriptedRead lowMap (freshState (losingScript k long)) (.fill k libOk) =
      some (afterLongFill k long) := by
  have positive : (0 : Int) < k := by
    unfold streamBufSize at leaves
    omega
  have contract : ReadContract k ⟨k, long⟩ := by
    refine ⟨by simp [counted], by simp [counted], ?_⟩
    simp only [eagain]
    omega
  have size : fillSize streamBufSize k = some k := by
    unfold fillSize
    rw [if_neg (by decide), if_pos positive, if_neg (by omega)]
    simp
  have straight := passes_end_iff lowMap emptyRing_wf.writePos_lt k (by omega)
  have target := targetAddr_eq lowMap emptyRing emptyRing_wf.writePos_lt
  have stays : ¬ u32Add (lowMap.vaStart + emptyRing.writePos) k > lowMap.vaEnd := by
    rw [straight]
    simp only [emptyRing]
    omega
  have space : emptyRing.space = streamBufSize := rfl
  have case : readCase k = .data := by
    rw [readCase, if_neg (by omega)]
  simp only [fillStep, decFillBsbuffer, freshState, libOk, space, size, target,
    if_neg stays, fillStraight, losingScript, scriptedRead, if_pos contract, afterRead, case,
    fillUpdate, FillOut.taken]
  simp only [Bool.true_eq_false, if_false, if_true, Int.toNat_natCast]
  rw [if_neg (by omega)]
  simp [afterLongFill, lowMap, emptyRing]

theorem losingRun_not_throughout :
    ¬ Throughout (fillStep scriptedRead lowMap) Lossless (losingRun k)
      (freshState (losingScript k long)) := by
  intro holds
  have meets := (throughout_iff_stepsMeet (fillStep_wf scriptedRead lowMap)
    (fillStep_lossless_iff scriptedRead lowMap) (losingRun k)
    (freshState (losingScript k long)) emptyRing_wf rfl).mp holds
  obtain ⟨_, afterFill⟩ := meets _ (losingRun_fills k long leaves counted)
  obtain ⟨_, drained⟩ := afterFill _ (losingRun_drains k long leaves)
  obtain ⟨last, third⟩ := losingRun_accepts k long leaves
  exact (drained last third).1 (losingRun_fails k long leaves)

end Losing

/-- The input is 2097152 bytes long: a fill of 2097150 of them, all decoded, and
a fill whose first read takes the last two, up to the end of the ring.  Its
second read finds the end of the input, and the two bytes are never committed. -/
theorem decFillBsbuffer_loses_first_read :
    ¬ Throughout (fillStep scriptedRead lowMap) Lossless (losingRun 2097150)
      (freshState (losingScript 2097150 (List.replicate 2097150 7))) :=
  losingRun_not_throughout 2097150 (List.replicate 2097150 7) rfl List.length_replicate

end ImxTest.Vpu.FillBsbuffer
