import ImxTest.Vpu.FillBsbuffer

/-!
# `enc_readbs_ring_buffer`: draining the encoder's bitstream ring

The encoder puts its output into a ring, and between two looks at the hardware the test
writes what is there to the output file.  A call with a `defaultsize` waits until that
many bytes are there and takes exactly these; a call without takes all of them.

The library is the ring its callers assume: it reports the read pointer and the number of
bytes, and moves the read pointer on.  Between the calls the encoder may change the memory
of the buffer in any way that keeps the bytes it has reported.
-/

set_option autoImplicit false

namespace ImxTest.Vpu.RingDrain

open ImxTest.Lib.ByteMem
open ImxTest.Lib.Run
open ImxTest.Vpu.FillBsbuffer

/-! ## The ring of the encoder library -/

structure EncRing where
  mem : Nat → Byte
  readPos : Nat
  /-- The bytes that are there. -/
  level : Nat

structure EncRing.Wf (ring : EncRing) : Prop where
  readPos_lt : ring.readPos < streamBufSize
  level_le : ring.level ≤ streamBufSize

def EncRing.unread (map : BsMap) (ring : EncRing) : List Byte :=
  readCyclic ring.mem map.vaStart streamBufSize ring.readPos ring.level

def EncRing.update (ring : EncRing) (n : Nat) : EncRing :=
  { ring with
    readPos := (ring.readPos + n) % streamBufSize
    level := ring.level - n }

/-! ## The function -/

structure DrainOut where
  ret : Int
  ring : EncRing
  /-- The address and the bytes of each `vpu_write`, in order. -/
  writes : List (Nat × List Byte)

/-- The size to write, or `none` where the function returns 0 before that. -/
def drainSize (size : Nat) (defaultsize : Int) : Option Nat :=
  if size = 0 then none
  else if 0 < defaultsize then
    if size < defaultsize.toNat then none else some defaultsize.toNat
  else some size

def encReadbsRingBuffer (map : BsMap) (lib : LibRet) (ring : EncRing) (defaultsize : Int) :
    DrainOut :=
  if lib.getOk = false then ⟨-1, ring, []⟩
  else
    match drainSize ring.level defaultsize with
    | none => ⟨0, ring, []⟩
    | some space =>
        -- `space > 0` is tested once more, and holds
        let target := u32Add map.vaStart (u32Sub (map.paStart + ring.readPos) map.paStart)
        let writes :=
          if u32Add target space > map.vaEnd then
            let room := u32Sub map.vaEnd target
            [(target, readAt ring.mem target room),
              (map.vaStart, readAt ring.mem map.vaStart (space - room))]
          else [(target, readAt ring.mem target space)]
        if lib.updateOk = false then ⟨-1, ring, writes⟩
        else ⟨space, ring.update space, writes⟩

theorem drainSize_bounds {size space : Nat} {defaultsize : Int}
    (chosen : drainSize size defaultsize = some space) : 0 < space ∧ space ≤ size := by
  unfold drainSize at chosen
  split at chosen
  · cases chosen
  split at chosen
  · split at chosen
    · cases chosen
    · cases Option.some.inj chosen
      omega
  · cases Option.some.inj chosen
    omega

theorem drainSize_zero (size : Nat) :
    drainSize size 0 = if size = 0 then none else some size := by
  unfold drainSize
  simp

/-! ## One call -/

def bytesOf (writes : List (Nat × List Byte)) : List Byte := writes.flatMap Prod.snd

def Inside (map : BsMap) (write : Nat × List Byte) : Prop :=
  ∀ i < write.2.length, map.vaStart ≤ write.1 + i ∧ write.1 + i < map.vaEnd

/-- What a call does that finds the library working: it writes the oldest bytes and takes
them out of the ring, or does nothing. -/
theorem encReadbsRingBuffer_cases (map : BsMap) (ring : EncRing) (defaultsize : Int)
    (wf : ring.Wf) :
    let out := encReadbsRingBuffer map libOk ring defaultsize
    (drainSize ring.level defaultsize = none ∧ out.ring = ring ∧ out.writes = []) ∨
      ∃ space, drainSize ring.level defaultsize = some space ∧ out.ring = ring.update space ∧
        bytesOf out.writes = readCyclic ring.mem map.vaStart streamBufSize ring.readPos space ∧
        ∀ write ∈ out.writes, Inside map write := by
  have position := wf.readPos_lt
  have level := wf.level_le
  have target := virtual_eq map position
  cases chosen : drainSize ring.level defaultsize with
  | none => exact .inl ⟨rfl, by simp [encReadbsRingBuffer, libOk, chosen]⟩
  | some space =>
      obtain ⟨positive, fits⟩ := drainSize_bounds chosen
      refine .inr ⟨space, rfl, ?_⟩
      have passes := passes_end_iff map position space (by omega)
      simp only [encReadbsRingBuffer, libOk, chosen, target, Bool.true_eq_false, if_false,
        true_and]
      by_cases wraps : streamBufSize < ring.readPos + space
      · have reaches : ring.readPos + (streamBufSize - ring.readPos) = streamBufSize := by omega
        have split : space =
            streamBufSize - ring.readPos + (space - (streamBufSize - ring.readPos)) := by omega
        rw [if_pos (passes.mpr wraps), room_eq map position]
        constructor
        · conv_rhs => rw [split]
          rw [readCyclic_wrap _ _ _ _ _ _ reaches (by omega)]
          simp [bytesOf]
        · simp only [List.forall_mem_cons, List.not_mem_nil, false_imp_iff, implies_true, and_true,
            Inside, readAt_length, BsMap.vaEnd]
          constructor
          · intro i inside
            omega
          · intro i inside
            omega
      · rw [if_neg (fun more => wraps (passes.mp more))]
        constructor
        · rw [readCyclic_straight _ _ _ _ _ (by omega)]
          simp [bytesOf]
        · simp only [List.forall_mem_cons, List.not_mem_nil, false_imp_iff, implies_true, and_true,
            Inside, readAt_length, BsMap.vaEnd]
          intro i inside
          omega

/-! ## Runs -/

structure EncState where
  ring : EncRing
  /-- Every byte the encoder has reported, oldest first. -/
  produced : List Byte
  /-- Every `vpu_write`, oldest first. -/
  written : List (Nat × List Byte)

inductive EncEvent where
  /-- The encoder adds bytes to the ring; the memory is as it leaves it. -/
  | produce (bytes : List Byte) (mem : Nat → Byte)
  | drain (defaultsize : Int)

def encStep (map : BsMap) (state : EncState) : EncEvent → Option EncState
  | .produce bytes mem =>
      let next : EncRing := ⟨mem, state.ring.readPos, state.ring.level + bytes.length⟩
      if next.level ≤ streamBufSize ∧ next.unread map = state.ring.unread map ++ bytes then
        some ⟨next, state.produced ++ bytes, state.written⟩
      else none
  | .drain defaultsize =>
      let out := encReadbsRingBuffer map libOk state.ring defaultsize
      some ⟨out.ring, state.produced, state.written ++ out.writes⟩

/-- An empty ring, before the encoder has started. -/
def EncState.fresh (mem : Nat → Byte) (readPos : Nat) : EncState :=
  ⟨⟨mem, readPos, 0⟩, [], []⟩

/-- What has been written and what is in the ring is what has been produced. -/
structure Fifo (map : BsMap) (state : EncState) : Prop where
  wf : state.ring.Wf
  bytes : state.produced = bytesOf state.written ++ state.ring.unread map
  inside : ∀ write ∈ state.written, Inside map write

theorem unread_update (map : BsMap) (ring : EncRing) (n : Nat) (fits : n ≤ ring.level) :
    ring.unread map =
      readCyclic ring.mem map.vaStart streamBufSize ring.readPos n ++ (ring.update n).unread map :=
  readCyclic_split ring.mem map.vaStart streamBufSize ring.readPos ring.level n fits

theorem EncRing.Wf.update {ring : EncRing} (wf : ring.Wf) (n : Nat) : (ring.update n).Wf := by
  have level := wf.level_le
  refine ⟨Nat.mod_lt _ (by decide), ?_⟩
  simp only [EncRing.update]
  omega

theorem Fifo.step (map : BsMap) (state : EncState) (event : EncEvent) (next : EncState)
    (fifo : Fifo map state) (step : encStep map state event = some next) : Fifo map next := by
  cases event with
  | produce bytes mem =>
      simp only [encStep] at step
      split at step
      · rename_i kept
        cases step
        refine ⟨⟨fifo.wf.readPos_lt, kept.1⟩, ?_, fifo.inside⟩
        simp only [kept.2, fifo.bytes, List.append_assoc]
      · cases step
  | drain defaultsize =>
      simp only [encStep] at step
      cases step
      rcases encReadbsRingBuffer_cases map state.ring defaultsize fifo.wf with
        ⟨-, ring, writes⟩ | ⟨space, chosen, ring, bytes, inside⟩
      · rw [ring, writes, List.append_nil]
        exact fifo
      · obtain ⟨-, fits⟩ := drainSize_bounds chosen
        refine ⟨?_, ?_, ?_⟩
        · rw [ring]
          exact fifo.wf.update space
        · simp only [ring, bytesOf, List.flatMap_append]
          rw [← bytesOf, ← bytesOf, bytes, List.append_assoc, ← unread_update map _ _ fits]
          exact fifo.bytes
        · exact List.forall_mem_append.mpr ⟨fifo.inside, inside⟩

theorem fresh_fifo (map : BsMap) (mem : Nat → Byte) {readPos : Nat}
    (inside : readPos < streamBufSize) : Fifo map (EncState.fresh mem readPos) :=
  ⟨⟨inside, Nat.zero_le _⟩, rfl, fun _ member => absurd member List.not_mem_nil⟩

/-- In every run what has been written is the first part of what has been produced, read
inside the buffer; a call without a `defaultsize` then writes the rest of it. -/
theorem encReadbsRingBuffer_fifo (map : BsMap) (mem : Nat → Byte) {readPos : Nat}
    (start : readPos < streamBufSize) (events : List EncEvent) (state : EncState)
    (run : runEvents (encStep map) events (EncState.fresh mem readPos) = some state) :
    state.produced = bytesOf state.written ++ state.ring.unread map ∧
      (∀ write ∈ state.written, Inside map write) ∧
      ∃ next, encStep map state (.drain 0) = some next ∧ next.ring.level = 0 ∧
        bytesOf next.written = state.produced := by
  have fifo := runEvents_preserves (Fifo.step map) events _ state (fresh_fifo map mem start) run
  refine ⟨fifo.bytes, fifo.inside, _, rfl, ?_⟩
  have after := fifo.step map state (.drain 0) _ rfl
  have empty : (encReadbsRingBuffer map libOk state.ring 0).ring.level = 0 := by
    rcases encReadbsRingBuffer_cases map state.ring 0 fifo.wf with
      ⟨chosen, ring, -⟩ | ⟨space, chosen, ring, -, -⟩
    · rw [drainSize_zero] at chosen
      rw [ring]
      by_contra nonzero
      rw [if_neg nonzero] at chosen
      cases chosen
    · rw [drainSize_zero] at chosen
      split at chosen
      · cases chosen
      · cases chosen
        rw [ring]
        exact Nat.sub_self _
  refine ⟨empty, ?_⟩
  have bytes := after.bytes
  simp only [EncRing.unread, empty] at bytes
  simpa [readCyclic] using bytes.symm

/-- Five bytes over the end of the ring, and two calls that want four; the second finds
one. -/
def wrappedEvents : List EncEvent :=
  [.produce [1, 2, 3, 4, 5] (writeRuns (fun _ => 0) [(2097149, [1, 2, 3]), (0, [4, 5])]),
    .drain 4, .drain 4]

theorem encReadbsRingBuffer_fifo_wrapped :
    ∃ state, runEvents (encStep lowMap) wrappedEvents (EncState.fresh (fun _ => 0) 2097149) =
        some state ∧
      bytesOf state.written = [1, 2, 3, 4] ∧
      ∃ next, encStep lowMap state (.drain 0) = some next ∧ next.ring.level = 0 ∧
        bytesOf next.written = state.produced := by
  have start : 2097149 < streamBufSize := by decide
  refine ⟨_, rfl, by decide, ?_⟩
  exact (encReadbsRingBuffer_fifo lowMap (fun _ => 0) start wrappedEvents _ rfl).2.2

end ImxTest.Vpu.RingDrain
