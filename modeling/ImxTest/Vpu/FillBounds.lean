import ImxTest.Vpu.FillBsbuffer

/-!
# Where a fill stores

Both fill functions, the one of the decoder and the one of the loop-back test, store at
the write pointer of the ring and commit what they stored.  Whatever `vpu_read` answers
and whatever the library calls return, the stores stay in the free bytes of the ring.
-/

set_option autoImplicit false

namespace ImxTest.Vpu.FillBsbuffer

open ImxTest.Lib.ByteMem

/-! ## The fill of the loop-back test -/

structure LoopbackOut where
  ret : Int
  ring : DecRing
  stores : List (Nat × List Byte)

def loopbackUpdate (map : BsMap) (lib : LibRet) (ring : DecRing) (size : Int)
    (stores : List (Nat × List Byte)) : LoopbackOut :=
  if lib.updateOk = false then ⟨-1, ring, stores⟩
  else ⟨size, ring.update map size.toNat, stores⟩

/-- `dec_fill_bsbuffer(buf, size)` of `loopback.c`; `buf` is the memory from the pointer on. -/
def loopbackFillBsbuffer (map : BsMap) (lib : LibRet) (ring : DecRing) (buf : Nat → Byte)
    (size : Int) : LoopbackOut :=
  if lib.getOk = false then ⟨-1, ring, []⟩
  else if ring.space = 0 ∨ size ≤ 0 then ⟨0, ring, []⟩
  else if ring.space < size.toNat then ⟨0, ring, []⟩
  else
    let target := targetAddr map ring
    if u32Add target size.toNat > map.vaEnd then
      let room := u32Sub map.vaEnd target
      let first := readAt buf 0 room
      let second := readAt buf room (size.toNat - room)
      loopbackUpdate map lib ((ring.store target first).store map.vaStart second) size
        [(target, first), (map.vaStart, second)]
    else
      let only := readAt buf 0 size.toNat
      loopbackUpdate map lib (ring.store target only) size [(target, only)]

/-! ## Free bytes -/

/-- One of the `space` bytes behind the write pointer, in the order of the ring. -/
def FreeByte (map : BsMap) (ring : DecRing) (addr : Nat) : Prop :=
  ∃ k < ring.space, addr = map.vaStart + (ring.writePos + k) % streamBufSize

def DecRing.unread (map : BsMap) (ring : DecRing) (mem : Nat → Byte) : List Byte :=
  readCyclic mem map.vaStart streamBufSize ring.readPos ring.level

def DecRing.storeAll (ring : DecRing) (stores : List (Nat × List Byte)) : DecRing :=
  { ring with mem := writeRuns ring.mem stores }

/-- A call that stores in the free bytes and commits at most their number. -/
structure WritesFree (map : BsMap) (ring next : DecRing) (stores : List (Nat × List Byte)) :
    Prop where
  inside : ∀ store ∈ stores, ∀ i < store.2.length,
    map.vaStart ≤ store.1 + i ∧ store.1 + i < map.vaEnd
  free : ∀ store ∈ stores, ∀ i < store.2.length, FreeByte map ring (store.1 + i)
  commits : next = ring.storeAll stores ∨
    ∃ n ≤ ring.space, next = (ring.storeAll stores).update map n

theorem FreeByte.inside {map : BsMap} {ring : DecRing} {addr : Nat}
    (free : FreeByte map ring addr) : map.vaStart ≤ addr ∧ addr < map.vaEnd := by
  obtain ⟨k, -, rfl⟩ := free
  have below : (ring.writePos + k) % streamBufSize < streamBufSize := Nat.mod_lt _ (by decide)
  unfold BsMap.vaEnd
  omega

theorem WritesFree.of_free {map : BsMap} {ring next : DecRing}
    {stores : List (Nat × List Byte)}
    (free : ∀ store ∈ stores, ∀ i < store.2.length, FreeByte map ring (store.1 + i))
    (commits : next = ring.storeAll stores ∨
      ∃ n ≤ ring.space, next = (ring.storeAll stores).update map n) :
    WritesFree map ring next stores :=
  ⟨fun store member i inside => (free store member i inside).inside, free, commits⟩

theorem WritesFree.nothing (map : BsMap) (ring : DecRing) : WritesFree map ring ring [] :=
  WritesFree.of_free (fun _ member => absurd member List.not_mem_nil) (.inl rfl)

theorem update_mem (map : BsMap) (ring : DecRing) (n : Nat) :
    (ring.update map n).mem = ring.mem := by
  unfold DecRing.update
  split <;> rfl

theorem WritesFree.unread {map : BsMap} {ring next : DecRing} {stores : List (Nat × List Byte)}
    (writes : WritesFree map ring next stores) (wf : ring.Wf) :
    ring.unread map next.mem = ring.unread map ring.mem := by
  have memory : next.mem = writeRuns ring.mem stores := by
    rcases writes.commits with rfl | ⟨n, -, rfl⟩
    · rfl
    · exact update_mem map _ n
  have level := wf.level_le
  rw [memory]
  apply readCyclic_writeRuns
  intro store member i inside
  obtain ⟨k, free, place⟩ := writes.free store member i inside
  unfold DecRing.space at free
  refine ⟨ring.level + k, Nat.le_add_right _ _, by omega, ?_⟩
  rw [place, ← wf.pointers, Nat.mod_add_mod, Nat.add_assoc]

/-! ## Stores at the write pointer -/

section Stores
variable {map : BsMap} {ring : DecRing}

theorem free_at_writePos {i : Nat} (inside : ring.writePos + i < streamBufSize)
    (free : i < ring.space) : FreeByte map ring (map.vaStart + ring.writePos + i) :=
  ⟨i, free, by rw [Nat.mod_eq_of_lt inside, Nat.add_assoc]⟩

theorem free_at_start {room i : Nat} (reaches : ring.writePos + room = streamBufSize)
    (free : room + i < ring.space) : FreeByte map ring (map.vaStart + i) := by
  have level : ring.space ≤ streamBufSize := Nat.sub_le _ _
  refine ⟨room + i, free, ?_⟩
  rw [← Nat.add_assoc, reaches, Nat.add_mod_left, Nat.mod_eq_of_lt (by omega)]

/-- One store at the write pointer that stays below the end of the ring. -/
theorem writesFree_straight {next : DecRing} {bytes : List Byte}
    (inside : ring.writePos + bytes.length ≤ streamBufSize) (fits : bytes.length ≤ ring.space)
    (commits : next = ring.store (map.vaStart + ring.writePos) bytes ∨
      ∃ n ≤ ring.space, next = (ring.store (map.vaStart + ring.writePos) bytes).update map n) :
    WritesFree map ring next [(map.vaStart + ring.writePos, bytes)] := by
  refine WritesFree.of_free ?_ commits
  intro store member i below
  obtain rfl := List.mem_singleton.mp member
  simp only at below
  exact free_at_writePos (by omega) (by omega)

/-- Two stores, up to the end of the ring and from its start on. -/
theorem writesFree_wrap {next : DecRing} {first second : List Byte} {room : Nat}
    (reaches : ring.writePos + room = streamBufSize) (whole : first.length ≤ room)
    (fits : room + second.length ≤ ring.space)
    (commits : next = (ring.store (map.vaStart + ring.writePos) first).store map.vaStart second ∨
      ∃ n ≤ ring.space, next = ((ring.store (map.vaStart + ring.writePos) first).store
        map.vaStart second).update map n) :
    WritesFree map ring next
      [(map.vaStart + ring.writePos, first), (map.vaStart, second)] := by
  refine WritesFree.of_free ?_ commits
  intro store member i below
  simp only [List.mem_cons, List.not_mem_nil, or_false] at member
  rcases member with rfl | rfl
  · simp only at below
    exact free_at_writePos (by omega) (by omega)
  · simp only at below
    exact free_at_start reaches (by omega)

end Stores

/-! ## The decoder's fill -/

section Decoder
variable {Source : Type}

theorem fillUpdate_commits (map : BsMap) (lib : LibRet) (ring : DecRing) (source : Source)
    (fillEndBs eos : Bool) (nread : Int) (stores : List (Nat × List Byte)) :
    let out := fillUpdate map lib ring source fillEndBs eos nread stores
    out.stores = stores ∧
      (out.ring = ring ∨ ∃ n ≤ nread.toNat, out.ring = ring.update map n) := by
  have ends : streamEndSize ≤ nread.toNat := Nat.zero_le _
  unfold fillUpdate
  split
  · split
    · exact ⟨rfl, .inl rfl⟩
    · exact ⟨rfl, .inr ⟨_, le_rfl, rfl⟩⟩
  · split
    · split
      · exact ⟨rfl, .inl rfl⟩
      · exact ⟨rfl, .inr ⟨_, ends, rfl⟩⟩
    · exact ⟨rfl, .inl rfl⟩

/-- Whatever the answer, the code behind a read commits at most the bytes read. -/
theorem afterRead_commits (map : BsMap) (lib : LibRet) (ring : DecRing) (source : Source)
    (fillEndBs : Bool) (nread total : Int) (stores : List (Nat × List Byte)) :
    let out := afterRead map lib ring source fillEndBs nread total stores
    out.stores = stores ∧
      (out.ring = ring ∨ ∃ n ≤ total.toNat, out.ring = ring.update map n) := by
  unfold afterRead
  cases readCase nread with
  | leave ret => exact ⟨rfl, .inl rfl⟩
  | eof => exact fillUpdate_commits map lib ring source fillEndBs true total stores
  | data => exact fillUpdate_commits map lib ring source fillEndBs false total stores

theorem nread_le {n : Nat} {answer : ReadResult} (contract : ReadContract n answer) :
    answer.nread.toNat ≤ n := by
  obtain ⟨short, counted, -⟩ := contract
  by_cases positive : 0 ≤ answer.nread
  · have := counted positive
    omega
  · omega

variable (vpuRead : VpuRead Source) (map : BsMap) (lib : LibRet) (ring : DecRing)
  (source : Source) (fillEndBs : Bool)

theorem afterRead_writesFree (n : Nat) (answer : ReadResult) (contract : ReadContract n answer)
    (inside : ring.writePos + n ≤ streamBufSize) (fits : n ≤ ring.space) (out : FillOut Source)
    (result : out = afterRead map lib (ring.store (map.vaStart + ring.writePos) answer.bytes)
      source fillEndBs answer.nread answer.nread
      [(map.vaStart + ring.writePos, answer.bytes)]) :
    WritesFree map ring out.ring out.stores := by
  have short := contract.1
  have count := nread_le contract
  obtain ⟨stores, commits⟩ := afterRead_commits map lib
    (ring.store (map.vaStart + ring.writePos) answer.bytes) source fillEndBs answer.nread
    answer.nread [(map.vaStart + ring.writePos, answer.bytes)]
  rw [← result] at stores commits
  rw [stores]
  refine writesFree_straight (by omega) (by omega) ?_
  exact commits.imp_right fun ⟨n, bound, updated⟩ => ⟨n, by omega, updated⟩

theorem fillWrap_writesFree (size room : Nat) (reaches : ring.writePos + room = streamBufSize)
    (wraps : room < size) (positive : 0 < room) (fits : size ≤ ring.space) :
    let out := fillWrap vpuRead map lib ring source fillEndBs (map.vaStart + ring.writePos) size
    WritesFree map ring out.ring out.stores := by
  have roomEq : u32Sub map.vaEnd (map.vaStart + ring.writePos) = room := by
    rw [room_eq map (by omega)]
    omega
  have contract := vpuRead.contract source room
  have short := contract.1
  simp only [fillWrap, roomEq]
  by_cases full : readCase (vpuRead.read source room).1.nread = .data ∧
      (vpuRead.read source room).1.nread = (room : Int)
  · rw [if_pos full, fillRemaining, full.2]
    have more := vpuRead.contract (vpuRead.read source room).2 (size - room)
    have shortMore := more.1
    have countMore := nread_le more
    obtain ⟨stores, commits⟩ := afterRead_commits map lib
      ((ring.store (map.vaStart + ring.writePos) (vpuRead.read source room).1.bytes).store
        map.vaStart (vpuRead.read (vpuRead.read source room).2 (size - room)).1.bytes)
      (vpuRead.read (vpuRead.read source room).2 (size - room)).2 fillEndBs
      (vpuRead.read (vpuRead.read source room).2 (size - room)).1.nread
      ((vpuRead.read (vpuRead.read source room).2 (size - room)).1.nread + room)
      [(map.vaStart + ring.writePos, (vpuRead.read source room).1.bytes),
        (map.vaStart, (vpuRead.read (vpuRead.read source room).2 (size - room)).1.bytes)]
    simp only [List.singleton_append]
    rw [stores]
    refine writesFree_wrap reaches short (by omega) ?_
    refine commits.imp_right ?_
    rintro ⟨n, bound, updated⟩
    exact ⟨n, by omega, updated⟩
  · rw [if_neg full]
    exact afterRead_writesFree map lib ring _ fillEndBs room _ contract (by omega) (by omega)
      _ rfl

theorem decFillBsbuffer_writesFree (defaultsize : Int) (below : ring.writePos < streamBufSize) :
    let out := decFillBsbuffer vpuRead map lib defaultsize ring source fillEndBs
    WritesFree map ring out.ring out.stores := by
  unfold decFillBsbuffer
  split
  · exact WritesFree.nothing map ring
  · cases chosen : fillSize ring.space defaultsize with
    | none => exact WritesFree.nothing map ring
    | some size =>
        obtain ⟨-, fits⟩ := fillSize_bounds chosen
        have level : ring.space ≤ streamBufSize := Nat.sub_le _ _
        have passes := passes_end_iff map below size (by omega)
        simp only [targetAddr_eq map ring below]
        by_cases wraps : streamBufSize < ring.writePos + size
        · rw [if_pos (passes.mpr wraps)]
          exact fillWrap_writesFree vpuRead map lib ring source fillEndBs size
            (streamBufSize - ring.writePos) (by omega) (by omega) (by omega) fits
        · rw [if_neg (fun more => wraps (passes.mp more))]
          exact afterRead_writesFree map lib ring _ fillEndBs size _ (vpuRead.contract _ _)
            (by omega) fits _ rfl

end Decoder

/-! ## The loop-back fill -/

section Loopback
variable (map : BsMap) (lib : LibRet) (ring : DecRing)

theorem loopbackUpdate_commits (size : Int) (stores : List (Nat × List Byte)) :
    let out := loopbackUpdate map lib ring size stores
    out.stores = stores ∧ (out.ring = ring ∨ ∃ n ≤ size.toNat, out.ring = ring.update map n) := by
  unfold loopbackUpdate
  split
  · exact ⟨rfl, .inl rfl⟩
  · exact ⟨rfl, .inr ⟨_, le_rfl, rfl⟩⟩

theorem loopbackFillBsbuffer_writesFree (buf : Nat → Byte) (size : Int)
    (below : ring.writePos < streamBufSize) :
    let out := loopbackFillBsbuffer map lib ring buf size
    WritesFree map ring out.ring out.stores := by
  unfold loopbackFillBsbuffer
  split
  · exact WritesFree.nothing map ring
  split
  · exact WritesFree.nothing map ring
  split
  · exact WritesFree.nothing map ring
  rename_i fits
  have level : ring.space ≤ streamBufSize := Nat.sub_le _ _
  have passes := passes_end_iff map below size.toNat (by omega)
  simp only [targetAddr_eq map ring below, room_eq map below]
  by_cases wraps : streamBufSize < ring.writePos + size.toNat
  · rw [if_pos (passes.mpr wraps)]
    obtain ⟨stores, commits⟩ := loopbackUpdate_commits map lib
      ((ring.store (map.vaStart + ring.writePos)
        (readAt buf 0 (streamBufSize - ring.writePos))).store map.vaStart
        (readAt buf (streamBufSize - ring.writePos)
          (size.toNat - (streamBufSize - ring.writePos)))) size
      [(map.vaStart + ring.writePos, readAt buf 0 (streamBufSize - ring.writePos)),
        (map.vaStart, readAt buf (streamBufSize - ring.writePos)
          (size.toNat - (streamBufSize - ring.writePos)))]
    rw [stores]
    have reaches : ring.writePos + (streamBufSize - ring.writePos) = streamBufSize := by omega
    refine writesFree_wrap reaches ?_ ?_ ?_
    · rw [readAt_length]
    · rw [readAt_length]
      omega
    · exact commits.imp_right fun ⟨n, bound, updated⟩ => ⟨n, by omega, updated⟩
  · rw [if_neg (fun more => wraps (passes.mp more))]
    obtain ⟨stores, commits⟩ := loopbackUpdate_commits map lib
      (ring.store (map.vaStart + ring.writePos) (readAt buf 0 size.toNat)) size
      [(map.vaStart + ring.writePos, readAt buf 0 size.toNat)]
    rw [stores]
    refine writesFree_straight ?_ ?_ ?_
    · rw [readAt_length]
      omega
    · rw [readAt_length]
      omega
    · exact commits.imp_right fun ⟨n, bound, updated⟩ => ⟨n, by omega, updated⟩

end Loopback

/-- Every call of the two functions, whatever it returns, stores only free bytes of the
ring and commits at most their number, and the unread bytes stay as they are. -/
theorem fills_write_free_bytes (map : BsMap) (ring : DecRing)
    (below : ring.writePos < streamBufSize) :
    (∀ (Source : Type) (vpuRead : VpuRead Source) (lib : LibRet) (defaultsize : Int)
        (source : Source) (fillEndBs : Bool),
      let out := decFillBsbuffer vpuRead map lib defaultsize ring source fillEndBs
      WritesFree map ring out.ring out.stores ∧
        (ring.Wf → ring.unread map out.ring.mem = ring.unread map ring.mem)) ∧
    (∀ (lib : LibRet) (buf : Nat → Byte) (size : Int),
      let out := loopbackFillBsbuffer map lib ring buf size
      WritesFree map ring out.ring out.stores ∧
        (ring.Wf → ring.unread map out.ring.mem = ring.unread map ring.mem)) := by
  constructor
  · intro Source vpuRead lib defaultsize source fillEndBs
    have writes := decFillBsbuffer_writesFree vpuRead map lib ring source fillEndBs
      defaultsize below
    exact ⟨writes, writes.unread⟩
  · intro lib buf size
    have writes := loopbackFillBsbuffer_writesFree map lib ring buf size below
    exact ⟨writes, writes.unread⟩

/-- A ring with two bytes before its end and all but one byte free. -/
def lateRing : DecRing := ⟨fun _ => 9, 2097149, 2097150, 1, false, []⟩

theorem fills_write_free_bytes_late :
    lateRing.Wf ∧
      (loopbackFillBsbuffer lowMap libOk lateRing (fun i => UInt8.ofNat i) 4).stores =
        [(2097150, [0, 1]), (0, [2, 3])] ∧
      lateRing.unread lowMap
        (loopbackFillBsbuffer lowMap libOk lateRing (fun i => UInt8.ofNat i) 4).ring.mem = [9] := by
  have wf : lateRing.Wf := ⟨by decide, by decide, by decide, by decide⟩
  refine ⟨wf, by decide, ?_⟩
  exact ((fills_write_free_bytes lowMap lateRing wf.writePos_lt).2 libOk _ 4).2 wf

end ImxTest.Vpu.FillBsbuffer
