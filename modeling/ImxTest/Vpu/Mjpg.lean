import ImxTest.Lib.MarkerSplit
import ImxTest.Vpu.Basic

/-!
# The motion JPEG chunker

`mjpg_read_chunk` cuts a stream of pictures before each SOI marker (FF D8).  The
stream comes through `vpu_read` in pieces of any size, so a marker may lie across
two of them: the scanner keeps its state between refills and between calls, and
the two bytes of the marker that ended a chunk stay in the buffer as the start of
the next one.

The model keeps of `mjpg_cached_bsbuf` the bytes below `mjpg_wr_ptr`.  A store
that may pass the end of the buffer is a fault.
-/

set_option autoImplicit false

namespace ImxTest.Vpu.Mjpg

open ImxTest.Lib.MarkerSplit

/-! ## The scanner -/

def scStep (scState : Nat) (byte : Byte) : Nat :=
  match scState with
  | 0 => if byte = 0xFF then 1 else 0
  | 1 => if byte = 0xD8 then 2 else if byte ≠ 0xFF then 0 else 1
  | 2 => if byte = 0xFF then 1 else 0
  | other => other

/-- The loop of `mjpg_seek_soi`: the state after it and the bytes consumed.  It
is left in the middle when state 1 meets D8. -/
def seekLoop : Nat → List Byte → Nat × Nat
  | scState, [] => (scState, 0)
  | scState, byte :: rest =>
      if scState = 1 ∧ byte = 0xD8 then (2, 1)
      else
        let after := seekLoop (scStep scState byte) rest
        (after.1, after.2 + 1)

/-- The scanner's state and the position behind the marker, or -1. -/
def mjpgSeekSoi (scState : Nat) (bytes : List Byte) : Nat × Int :=
  let after := seekLoop scState bytes
  (after.1, if after.1 = 2 then (after.2 : Int) else -1)

/-! ## The chunker -/

structure MjpgState where
  /-- `mjpg_cached_bsbuf` up to `mjpg_wr_ptr`. -/
  buf : List Byte
  rdPtr : Nat
  scState : Nat
  eof : Bool
  /-- The memory at `virt_bsbuf_addr`. -/
  bsbuf : List Byte
  deriving DecidableEq, Repr

def MjpgState.zeroed (bsbuf : List Byte) : MjpgState := ⟨[], 0, 0, false, bsbuf⟩

/-- The chunk goes to the bitstream buffer without the marker that closes it. -/
def MjpgState.chunkRead (state : MjpgState) (scState rdPtr : Nat) : MjpgState :=
  let chunk := state.buf.take (rdPtr - 2)
  { state with
    scState := scState
    rdPtr := rdPtr
    bsbuf := chunk ++ state.bsbuf.drop chunk.length }

inductive ChunkResult (Source : Type) where
  | returned (ret : Int) (state : MjpgState) (source : Source)
  | fault
  | outOfFuel

section Chunker
variable {Source : Type} (vpuRead : VpuRead Source)

/-- The refill at the top of the loop: how it leaves the loop, or the state to
scan. -/
def refill (state : MjpgState) (source : Source) :
    ChunkResult Source ⊕ (MjpgState × Source) :=
  if state.rdPtr ≠ state.buf.length then .inr (state, source)
  else if state.buf.length + mjpgFillSize > streamBufSize then .inl .fault
  else
    let (result, source) := vpuRead.read source mjpgFillSize
    if result.nread < 0 then .inl (.returned (-1) state source)
    else if result.nread = 0 then
      if state.eof then .inl (.returned 0 state source)
      -- pad soi
      else .inr ({ state with buf := state.buf ++ [0xFF, 0xD8], eof := true }, source)
    else .inr ({ state with buf := state.buf ++ result.bytes }, source)

def tillSoiLoop : Nat → MjpgState → Source → ChunkResult Source
  | 0, _, _ => .outOfFuel
  | fuel + 1, state, source =>
      match refill vpuRead state source with
      | .inl result => result
      | .inr (state, source) =>
          let (scState, pos) := mjpgSeekSoi state.scState (state.buf.drop state.rdPtr)
          if pos < 0 then
            tillSoiLoop fuel { state with scState := scState, rdPtr := state.buf.length } source
          else
            let rdPtr := state.rdPtr + pos.toNat
            if rdPtr < 2 then .fault
            else .returned rdPtr (state.chunkRead scState rdPtr) source

def compact (state : MjpgState) : MjpgState :=
  if state.rdPtr > 2 then
    { state with buf := state.buf.drop (state.rdPtr - 2), rdPtr := 2 }
  else state

def mjpgReadChunkTillSoi (fuel : Nat) (state : MjpgState) (source : Source) :
    ChunkResult Source :=
  tillSoiLoop vpuRead fuel (compact state) source

def mjpgReadChunk (fuel : Nat) (state : MjpgState) (source : Source) : ChunkResult Source :=
  if state.rdPtr = 0 then
    match mjpgReadChunkTillSoi vpuRead fuel state source with
    | .returned ret state source =>
        if ret ≤ 0 then .returned ret state source
        else mjpgReadChunkTillSoi vpuRead fuel state source
    | .fault => .fault
    | .outOfFuel => .outOfFuel
  else mjpgReadChunkTillSoi vpuRead fuel state source

/-- The chunks of successive calls until one returns 0; `none` when a call fails
or there are more than `calls`. -/
def readChunks (fuel : Nat) : Nat → MjpgState → Source → Option (List (List Byte))
  | 0, _, _ => none
  | calls + 1, state, source =>
      match mjpgReadChunk vpuRead fuel state source with
      | .returned ret state source =>
          if ret = 0 then some []
          else if ret < 0 then none
          else do
            let later ← readChunks fuel calls state source
            some (state.bsbuf.take (ret - 2).toNat :: later)
      | .fault => none
      | .outOfFuel => none

end Chunker

/-- A source that delivers pieces one after the other and is then at its end. -/
def pieceRead : VpuRead (List (List Byte)) where
  read
    | [], _ => (⟨0, []⟩, [])
    | piece :: rest, n =>
        if piece.length ≤ n then (⟨piece.length, piece⟩, rest)
        else (⟨n, piece.take n⟩, piece.drop n :: rest)
  contract := by
    intro source n
    cases source with
    | nil => simp [ReadContract]
    | cons piece rest =>
        by_cases whole : piece.length ≤ n
        · simp only [if_pos whole, ReadContract, eagain]
          exact ⟨whole, fun _ => trivial, fun negative => by omega⟩
        · simp only [if_neg whole, ReadContract, eagain, List.length_take]
          exact ⟨by omega, fun _ => by omega, fun negative => by omega⟩

/-! ## The stretches of a stream -/

def soiSplit (stream : List Byte) : List Byte × List (List Byte) := markerSplit 0xFF 0xD8 stream

def soiChunks (stream : List Byte) : List (List Byte) := (soiSplit stream).2

/-- What precedes the first marker, and the chunks. -/
def soiStretches (stream : List Byte) : List (List Byte) :=
  (soiSplit stream).1 :: (soiSplit stream).2

/-- The stretches that a byte-wise scan of `future` completes; `acc` holds the
bytes of the current one that have been scanned. -/
def scan : Nat → List Byte → List Byte → List (List Byte)
  | _, _, [] => []
  | scState, acc, byte :: future =>
      let acc := acc ++ [byte]
      if scState = 1 ∧ byte = 0xD8 then
        acc.take (acc.length - 2) :: scan 2 (acc.drop (acc.length - 2)) future
      else scan (scStep scState byte) acc future

def soi : List Byte := [0xFF, 0xD8]

/-! ## Scanning byte by byte gives the stretches -/

theorem scStep_ne (scState : Nat) (byte : Byte) (other : ¬ (scState = 1 ∧ byte = 0xD8)) :
    scStep scState byte ≠ 2 := by
  unfold scStep
  split
  · split <;> decide
  · rw [if_neg (fun marker => other ⟨rfl, marker⟩)]
    split <;> decide
  · split <;> decide
  · assumption

theorem soiSplit_cons_other (byte : Byte) (rest : List Byte)
    (other : ¬ (byte = 0xFF ∧ rest.head? = some 0xD8)) :
    soiSplit (byte :: rest) = (byte :: (soiSplit rest).1, (soiSplit rest).2) := by
  rw [soiSplit, markerSplit, if_neg other]
  rfl

/-- In state 1 the last byte scanned is an FF that may open a marker. -/
theorem scan_stream (stream acc : List Byte) :
    (∀ scState, scState = 0 ∨ scState = 2 →
      scan scState acc (stream ++ soi) = (acc ++ (soiSplit stream).1) :: (soiSplit stream).2) ∧
    scan 1 (acc ++ [0xFF]) (stream ++ soi) =
      (acc ++ (soiSplit (0xFF :: stream)).1) :: (soiSplit (0xFF :: stream)).2 := by
  induction stream generalizing acc with
  | nil =>
      refine ⟨?_, ?_⟩
      · rintro scState (rfl | rfl) <;> simp [scan, soi, scStep, soiSplit, markerSplit]
      · have front : (acc ++ [0xFF, 0xFF, 0xD8]).take (acc.length + 1) = acc ++ [0xFF] := by
          rw [List.take_append, List.take_of_length_le (by omega)]
          simp
        simp [scan, soi, scStep, soiSplit, markerSplit, front]
  | cons byte rest ih =>
      refine ⟨?_, ?_⟩
      · intro scState quiet
        have idle : ¬ (scState = 1 ∧ byte = 0xD8) := by omega
        rw [List.cons_append, scan, if_neg idle]
        by_cases opens : byte = 0xFF
        · subst opens
          have step : scStep scState 0xFF = 1 := by rcases quiet with rfl | rfl <;> rfl
          rw [step]
          exact (ih acc).2
        · have step : scStep scState byte = 0 := by
            rcases quiet with rfl | rfl <;> simp [scStep, opens]
          rw [step, (ih (acc ++ [byte])).1 0 (.inl rfl),
            soiSplit_cons_other byte rest (fun marker => opens marker.1)]
          simp
      · by_cases closes : byte = 0xD8
        · subst closes
          have marker : soiSplit (0xFF :: 0xD8 :: rest) =
              ([], (0xFF :: 0xD8 :: (soiSplit rest).1) :: (soiSplit rest).2) := by
            have inner := soiSplit_cons_other 0xD8 rest (fun marker => by simp at marker)
            simp only [soiSplit] at inner ⊢
            rw [markerSplit, if_pos ⟨rfl, rfl⟩, inner]
          have later := (ih [0xFF, 0xD8]).1 2 (.inr rfl)
          rw [List.cons_append, scan, if_pos ⟨rfl, rfl⟩, marker]
          simpa using later
        · rw [List.cons_append, scan, if_neg (fun marker => closes marker.2),
            soiSplit_cons_other 0xFF (byte :: rest) (by simpa using closes)]
          by_cases opens : byte = 0xFF
          · subst opens
            have step : scStep 1 0xFF = 1 := rfl
            rw [step, (ih (acc ++ [0xFF])).2]
            simp
          · have step : scStep 1 byte = 0 := by simp [scStep, closes, opens]
            rw [step, (ih (acc ++ [0xFF] ++ [byte])).1 0 (.inl rfl),
              soiSplit_cons_other byte rest (fun marker => opens marker.1)]
            simp

theorem scan_zeroed (stream : List Byte) : scan 0 [] (stream ++ soi) = soiStretches stream := by
  have stretches := (scan_stream stream []).1 0 (.inl rfl)
  rwa [List.nil_append] at stretches

/-- What has been scanned of a stretch passes it by half a marker at most. -/
theorem scan_head_length (scState : Nat) (acc future head : List Byte) (tail : List (List Byte))
    (stretches : scan scState acc future = head :: tail) : acc.length ≤ head.length + 1 := by
  induction future generalizing scState acc with
  | nil => simp [scan] at stretches
  | cons byte rest ih =>
      rw [scan] at stretches
      split at stretches
      · obtain ⟨rfl, _⟩ := List.cons.inj stretches
        simp only [List.length_take, List.length_append, List.length_singleton]
        omega
      · have longer := ih _ _ stretches
        simp only [List.length_append, List.length_singleton] at longer
        omega

/-- `mjpg_seek_soi` on the bytes of one refill is a part of the scan. -/
theorem seekLoop_scan (scState : Nat) (bytes acc : List Byte) (nonempty : bytes ≠ []) :
    (∃ after, seekLoop scState bytes = (after, bytes.length) ∧ after ≠ 2 ∧
      ∀ future, scan scState acc (bytes ++ future) = scan after (acc ++ bytes) future) ∨
    (∃ count, seekLoop scState bytes = (2, count) ∧ count ≤ bytes.length ∧
      ((scState = 1 → acc ≠ []) → 2 ≤ acc.length + count) ∧
      ∀ future, scan scState acc (bytes ++ future) =
        (acc ++ bytes.take count).take (acc.length + count - 2) ::
          scan 2 ((acc ++ bytes.take count).drop (acc.length + count - 2))
            (bytes.drop count ++ future)) := by
  induction bytes generalizing scState acc with
  | nil => exact absurd rfl nonempty
  | cons byte rest ih =>
      by_cases found : scState = 1 ∧ byte = 0xD8
      · refine .inr ⟨1, by simp [seekLoop, found], by simp, ?_, ?_⟩
        · intro some
          have positive := List.length_pos_iff.mpr (some found.1)
          omega
        · intro future
          rw [List.cons_append, scan, if_pos found]
          simp
      · have step : seekLoop scState (byte :: rest) =
            ((seekLoop (scStep scState byte) rest).1,
              (seekLoop (scStep scState byte) rest).2 + 1) := by
          rw [seekLoop, if_neg found]
        have scanStep : ∀ future, scan scState acc (byte :: rest ++ future) =
            scan (scStep scState byte) (acc ++ [byte]) (rest ++ future) := by
          intro future
          rw [List.cons_append, scan, if_neg found]
        by_cases last : rest = []
        · subst last
          refine .inl ⟨scStep scState byte, step, scStep_ne scState byte found, ?_⟩
          intro future
          exact scanStep future
        · rcases ih (scStep scState byte) (acc ++ [byte]) last with
            ⟨after, seek, ne, scans⟩ | ⟨count, seek, inside, enough, scans⟩
          · refine .inl ⟨after, by rw [step, seek]; rfl, ne, ?_⟩
            intro future
            rw [scanStep, scans]
            simp
          · have length : (acc ++ [byte]).length + count - 2 = acc.length + (count + 1) - 2 := by
              simp only [List.length_append, List.length_singleton]
              omega
            refine .inr ⟨count + 1, by rw [step, seek], by simpa using inside, ?_, ?_⟩
            · intro _
              have two := enough (by simp)
              simp only [List.length_append, List.length_singleton] at two
              omega
            · intro future
              rw [scanStep, scans, length]
              simp

/-! ## One chunk -/

section Loop
variable {Source : Type} {vpuRead : VpuRead Source}

/-- What the loop does with the bytes of a refill: it goes on with all of them
scanned, or returns the stretch that a marker has closed. -/
theorem tillSoiLoop_scan (fuel : Nat) (state next : MjpgState) (source source' : Source)
    (future head : List Byte) (tail : List (List Byte))
    (refilled : refill vpuRead state source = .inr (next, source'))
    (some : next.rdPtr < next.buf.length) (started : next.scState = 1 → 1 ≤ next.rdPtr)
    (stretches : scan next.scState (next.buf.take next.rdPtr)
      (next.buf.drop next.rdPtr ++ future) = head :: tail) :
    (∃ scState,
      tillSoiLoop vpuRead (fuel + 1) state source =
        tillSoiLoop vpuRead fuel { next with scState := scState, rdPtr := next.buf.length }
          source' ∧
      scan scState next.buf future = head :: tail) ∨
    (∃ final,
      tillSoiLoop vpuRead (fuel + 1) state source = .returned (head.length + 2) final source' ∧
      final.buf = next.buf ∧ final.rdPtr = head.length + 2 ∧ final.scState = 2 ∧
      final.eof = next.eof ∧ final.bsbuf.take head.length = head ∧
      head.length + 2 ≤ next.buf.length ∧
      (∃ count, seekLoop next.scState (next.buf.drop next.rdPtr) = (2, count) ∧
        next.rdPtr + count = head.length + 2) ∧
      scan 2 ((next.buf.drop head.length).take 2) (next.buf.drop (head.length + 2) ++ future) =
        tail) := by
  have accLength : (next.buf.take next.rdPtr).length = next.rdPtr := by
    rw [List.length_take]
    omega
  have nonempty : next.buf.drop next.rdPtr ≠ [] := by
    intro none
    have length := congrArg List.length none
    simp only [List.length_drop, List.length_nil] at length
    omega
  rcases seekLoop_scan next.scState (next.buf.drop next.rdPtr) (next.buf.take next.rdPtr)
    nonempty with ⟨after, seek, ne, scans⟩ | ⟨count, seek, inside, enough, scans⟩
  · refine .inl ⟨after, ?_, ?_⟩
    · simp only [tillSoiLoop, refilled, mjpgSeekSoi, seek, if_neg ne]
      rw [if_pos (by decide)]
    · rw [← stretches, scans, List.take_append_drop]
  · rw [List.length_drop] at inside
    have two : 2 ≤ next.rdPtr + count := by
      have bound := enough (by
        intro one none
        have length := congrArg List.length none
        have first := started one
        rw [accLength, List.length_nil] at length
        omega)
      rwa [accLength] at bound
    have scanned : next.buf.take next.rdPtr ++ (next.buf.drop next.rdPtr).take count =
        next.buf.take (next.rdPtr + count) := by
      rw [List.take_add]
    rw [scans, scanned, accLength, List.take_take, Nat.min_eq_left (by omega)] at stretches
    obtain ⟨rfl, rfl⟩ := List.cons.inj stretches
    have headLength : (next.buf.take (next.rdPtr + count - 2)).length = next.rdPtr + count - 2 := by
      rw [List.length_take]
      omega
    have total : next.rdPtr + count - 2 + 2 = next.rdPtr + count := by omega
    refine .inr ⟨next.chunkRead 2 (next.rdPtr + count), ?_, rfl, by simp only [headLength, total,
      MjpgState.chunkRead], rfl, rfl, ?_, by omega, ⟨count, seek, by omega⟩, ?_⟩
    · simp only [tillSoiLoop, refilled, mjpgSeekSoi, seek, if_true, Int.toNat_natCast]
      rw [if_neg (by omega), if_neg (by omega), headLength]
      congr 1
      omega
    · rw [headLength, MjpgState.chunkRead]
      simp only
      rw [List.take_append_of_le_length (by omega), List.take_of_length_le (by omega)]
    · rw [headLength, total, List.drop_drop, List.drop_take]
      congr 2
      omega

end Loop

/-- Pieces as a read of `MJPG_FILL_SIZE` bytes can deliver them. -/
def PiecesOk (pieces : List (List Byte)) : Prop :=
  ∀ piece ∈ pieces, piece ≠ [] ∧ piece.length ≤ mjpgFillSize

/-- A compacted state, with the stretches still to be returned. -/
inductive Waiting : MjpgState → List (List Byte) → List (List Byte) → Prop where
  | more (state : MjpgState) (pieces : List (List Byte)) (head : List Byte)
      (tail : List (List Byte)) (eof : state.eof = false)
      (inside : state.rdPtr ≤ state.buf.length)
      (started : state.scState = 1 → 1 ≤ state.rdPtr)
      (scans : scan state.scState (state.buf.take state.rdPtr)
        (state.buf.drop state.rdPtr ++ (pieces.flatten ++ soi)) = head :: tail) :
      Waiting state pieces (head :: tail)
  | done (state : MjpgState) (eof : state.eof = true) (rdPtr : state.rdPtr = 2)
      (length : state.buf.length = 2) : Waiting state [] []

theorem compact_eq (state : MjpgState) (count : Nat) (rdPtr : state.rdPtr = count + 2) :
    compact state = { state with buf := state.buf.drop count, rdPtr := 2 } := by
  unfold compact
  by_cases positive : 0 < count
  · rw [if_pos (by omega), rdPtr, Nat.add_sub_cancel]
  · obtain rfl : count = 0 := by omega
    rw [if_neg (by omega), List.drop_zero]
    cases state
    simp only at rdPtr
    simp [rdPtr]

theorem pieceRead_cons (piece : List Byte) (rest : List (List Byte))
    (small : piece.length ≤ mjpgFillSize) :
    pieceRead.read (piece :: rest) mjpgFillSize = (⟨piece.length, piece⟩, rest) := by
  simp [pieceRead, small]

theorem refill_piece (state : MjpgState) (piece : List Byte) (rest : List (List Byte))
    (empty : state.rdPtr = state.buf.length)
    (room : state.buf.length + mjpgFillSize ≤ streamBufSize) (nonempty : piece ≠ [])
    (small : piece.length ≤ mjpgFillSize) :
    refill pieceRead state (piece :: rest) =
      .inr ({ state with buf := state.buf ++ piece }, rest) := by
  have positive := List.length_pos_iff.mpr nonempty
  rw [refill, if_neg (by simpa using empty), if_neg (by omega), pieceRead_cons piece rest small]
  simp only
  rw [if_neg (by omega), if_neg (by omega)]

theorem refill_pad (state : MjpgState) (empty : state.rdPtr = state.buf.length)
    (room : state.buf.length + mjpgFillSize ≤ streamBufSize) (eof : state.eof = false) :
    refill pieceRead state [] =
      .inr ({ state with buf := state.buf ++ soi, eof := true }, []) := by
  rw [refill, if_neg (by simpa using empty), if_neg (by omega)]
  simp [pieceRead, eof, soi]

theorem seekLoop_soi (scState count : Nat) (found : seekLoop scState soi = (2, count)) :
    count = 2 := by
  simp only [soi, seekLoop] at found
  rw [if_neg (fun marker => by simp at marker)] at found
  split at found
  · simpa using (congrArg Prod.snd found).symm
  · simpa using (congrArg Prod.snd found).symm

/-- After a chunk the rest of the buffer is scanned from its marker on. -/
theorem waiting_compact (final : MjpgState) (count : Nat) (rest tail : List (List Byte))
    (rdPtr : final.rdPtr = count + 2) (scState : final.scState = 2) (eof : final.eof = false)
    (inside : count + 2 ≤ final.buf.length)
    (scans : scan 2 ((final.buf.drop count).take 2)
      (final.buf.drop (count + 2) ++ (rest.flatten ++ soi)) = tail) :
    Waiting (compact final) rest tail := by
  -- the marker that is padded in the end closes one more stretch
  have some := (scan_stream (final.buf.drop (count + 2) ++ rest.flatten)
    ((final.buf.drop count).take 2)).1 2 (.inr rfl)
  rw [List.append_assoc, scans] at some
  rw [compact_eq final count rdPtr, some]
  refine .more _ _ _ _ eof ?_ (fun _ => Nat.le_succ 1) ?_
  · simp only [List.length_drop]
    omega
  · simp only [scState, List.drop_drop]
    rw [scans, some]

/-- At the end of the file the padded marker closes the last stretch. -/
theorem tillSoiLoop_last (fuel : Nat) (state : MjpgState) (head : List Byte)
    (tail : List (List Byte)) (eof : state.eof = false)
    (started : state.scState = 1 → 1 ≤ state.rdPtr) (empty : state.rdPtr = state.buf.length)
    (room : state.buf.length + mjpgFillSize ≤ streamBufSize)
    (scans : scan state.scState state.buf soi = head :: tail) :
    ∃ final, tillSoiLoop pieceRead (fuel + 1) state [] = .returned (head.length + 2) final [] ∧
      final.rdPtr = head.length + 2 ∧ final.bsbuf.take head.length = head ∧
      Waiting (compact final) [] tail := by
  have padded : scan state.scState ((state.buf ++ soi).take state.rdPtr)
      ((state.buf ++ soi).drop state.rdPtr ++ []) = head :: tail := by
    rw [empty, List.take_left, List.drop_left, List.append_nil]
    exact scans
  rcases tillSoiLoop_scan fuel state _ [] [] [] head tail (refill_pad state empty room eof)
      (by simp [empty, soi]) started padded with
    ⟨scState, _, none⟩ | ⟨final, returned, buf, rdPtr, _, finalEof, chunk, _,
      ⟨count, seek, total⟩, later⟩
  · simp [scan] at none
  simp only [empty, List.drop_left] at seek
  have two := seekLoop_soi _ _ seek
  have length : final.buf.length = head.length + 2 := by
    rw [buf, ← total, two]
    simp [empty, soi]
  have all : final.buf.drop (head.length + 2) = [] := List.drop_of_length_le (by omega)
  refine ⟨final, returned, rdPtr, chunk, ?_⟩
  rw [← buf, all, List.append_nil, scan] at later
  rw [← later, compact_eq final head.length rdPtr]
  exact .done _ finalEof rfl (by simp only [List.length_drop]; omega)

/-- The first stretch that is waiting is returned. -/
theorem tillSoiLoop_chunk (fuel : Nat) (state : MjpgState) (pieces : List (List Byte))
    (head : List Byte) (tail : List (List Byte)) (ok : PiecesOk pieces)
    (eof : state.eof = false) (inside : state.rdPtr ≤ state.buf.length)
    (started : state.scState = 1 → 1 ≤ state.rdPtr)
    (scans : scan state.scState (state.buf.take state.rdPtr)
      (state.buf.drop state.rdPtr ++ (pieces.flatten ++ soi)) = head :: tail)
    (fits : head.length + 1 + mjpgFillSize ≤ streamBufSize)
    (enough : pieces.length + (if state.rdPtr = state.buf.length then 1 else 2) ≤ fuel) :
    ∃ final rest, tillSoiLoop pieceRead fuel state pieces =
        .returned (head.length + 2) final rest ∧
      final.rdPtr = head.length + 2 ∧ final.bsbuf.take head.length = head ∧
      rest <:+ pieces ∧ Waiting (compact final) rest tail := by
  induction fuel generalizing state pieces with
  | zero => split at enough <;> omega
  | succ fuel ih =>
      by_cases empty : state.rdPtr = state.buf.length
      · rw [if_pos empty] at enough
        have short := scan_head_length _ _ _ _ _ scans
        rw [List.length_take] at short
        have room : state.buf.length + mjpgFillSize ≤ streamBufSize := by omega
        rw [empty, List.take_length, List.drop_length, List.nil_append] at scans
        cases pieces with
        | nil =>
            obtain ⟨final, returned, rdPtr, chunk, waiting⟩ :=
              tillSoiLoop_last fuel state head tail eof started empty room scans
            exact ⟨final, [], returned, rdPtr, chunk, List.suffix_refl _, waiting⟩
        | cons piece rest =>
            obtain ⟨nonempty, small⟩ := ok piece (by simp)
            have okRest : PiecesOk rest := fun one member => ok one (by simp [member])
            have positive := List.length_pos_iff.mpr nonempty
            rw [List.flatten_cons, List.append_assoc] at scans
            have refilled : scan state.scState ((state.buf ++ piece).take state.rdPtr)
                ((state.buf ++ piece).drop state.rdPtr ++ (rest.flatten ++ soi)) =
                  head :: tail := by
              rw [empty, List.take_left, List.drop_left]
              exact scans
            simp only [List.length_cons] at enough
            rcases tillSoiLoop_scan fuel state _ _ rest _ head tail
                (refill_piece state piece rest empty room nonempty small)
                (by simp only [List.length_append]; omega) started refilled with
              ⟨scState, goesOn, scans'⟩ | ⟨final, returned, buf, rdPtr, finalSc, finalEof, chunk,
                long, _, later⟩
            · obtain ⟨final, left, returned, rdPtr, chunk, suffix, waiting⟩ :=
                ih { state with buf := state.buf ++ piece, scState := scState,
                                rdPtr := (state.buf ++ piece).length } rest okRest eof
                  (Nat.le_refl _) (fun _ => by simp only [List.length_append]; omega)
                  (by rw [List.take_length, List.drop_length]; exact scans')
                  (by simp only [if_true]; omega)
              exact ⟨final, left, by rw [goesOn, returned], rdPtr, chunk,
                suffix.trans (List.suffix_cons piece rest), waiting⟩
            · refine ⟨final, rest, returned, rdPtr, chunk, List.suffix_cons piece rest, ?_⟩
              rw [← buf] at later long
              exact waiting_compact final head.length rest tail rdPtr finalSc
                (by rw [finalEof]; exact eof) long later
      · -- bytes of the last refill are left over
        rw [if_neg empty] at enough
        have refilled : refill pieceRead state pieces = .inr (state, pieces) := by
          rw [refill, if_pos empty]
        rcases tillSoiLoop_scan fuel state state pieces pieces _ head tail refilled (by omega)
            started scans with
          ⟨scState, goesOn, scans'⟩ | ⟨final, returned, buf, rdPtr, finalSc, finalEof, chunk,
            long, _, later⟩
        · obtain ⟨final, left, returned, rdPtr, chunk, suffix, waiting⟩ :=
            ih { state with scState := scState, rdPtr := state.buf.length } pieces ok eof
              (Nat.le_refl _) (fun _ => by simp only; omega) (by simpa using scans')
              (by simp only [if_true]; omega)
          exact ⟨final, left, by rw [goesOn, returned], rdPtr, chunk, suffix, waiting⟩
        · refine ⟨final, pieces, returned, rdPtr, chunk, List.suffix_refl _, ?_⟩
          rw [← buf] at later long
          exact waiting_compact final head.length pieces tail rdPtr finalSc
            (by rw [finalEof]; exact eof) long later

/-! ## Successive calls -/

section Calls
variable {fuel : Nat} {state : MjpgState} {pieces : List (List Byte)} (ok : PiecesOk pieces)
  (enough : pieces.length + 2 ≤ fuel)
include ok enough

theorem mjpgReadChunkTillSoi_chunk {head : List Byte} {tail : List (List Byte)}
    (waiting : Waiting (compact state) pieces (head :: tail))
    (fits : head.length + 1 + mjpgFillSize ≤ streamBufSize) :
    ∃ final rest, mjpgReadChunkTillSoi pieceRead fuel state pieces =
        .returned (head.length + 2) final rest ∧
      final.rdPtr = head.length + 2 ∧ final.bsbuf.take head.length = head ∧
      rest <:+ pieces ∧ Waiting (compact final) rest tail := by
  cases waiting with
  | more _ _ _ eof inside started scans =>
      exact tillSoiLoop_chunk fuel (compact state) pieces head tail ok eof inside started scans
        fits (by split <;> omega)

omit ok in
/-- The padded marker was the last: the next call finds the end of the file. -/
theorem mjpgReadChunkTillSoi_eof (waiting : Waiting (compact state) pieces []) :
    mjpgReadChunkTillSoi pieceRead fuel state pieces = .returned 0 (compact state) [] := by
  cases waiting with
  | done eof rdPtr length =>
      obtain ⟨fuel, rfl⟩ : ∃ less, fuel = less + 1 := ⟨fuel - 1, by omega⟩
      have stops : refill pieceRead (compact state) [] =
          .inl (.returned 0 (compact state) []) := by
        rw [refill, if_neg (by omega), if_neg (by rw [length]; decide)]
        simp [pieceRead, eof]
      simp only [mjpgReadChunkTillSoi, tillSoiLoop, stops]

theorem readChunks_waiting (calls : Nat) {chunks : List (List Byte)}
    (read : state.rdPtr ≠ 0) (waiting : Waiting (compact state) pieces chunks)
    (fits : ∀ chunk ∈ chunks, chunk.length + 1 + mjpgFillSize ≤ streamBufSize)
    (enoughCalls : chunks.length + 1 ≤ calls) :
    readChunks pieceRead fuel calls state pieces = some chunks := by
  induction chunks generalizing state pieces calls with
  | nil =>
      obtain ⟨calls, rfl⟩ : ∃ less, calls = less + 1 := ⟨calls - 1, by omega⟩
      have stops := mjpgReadChunkTillSoi_eof enough waiting
      simp only [readChunks, mjpgReadChunk, if_neg read, stops, if_true]
  | cons head tail ih =>
      obtain ⟨calls, rfl⟩ : ∃ less, calls = less + 1 := ⟨calls - 1, by
        rw [List.length_cons] at enoughCalls
        omega⟩
      obtain ⟨final, rest, returned, rdPtr, chunk, suffix, waiting'⟩ :=
        mjpgReadChunkTillSoi_chunk ok enough waiting (fits head (by simp))
      have shorter := suffix.length_le
      have later := ih (fun one member => ok one (suffix.subset member)) (by omega) calls (by omega)
        waiting'
        (fun one member => fits one (by simp [member]))
        (by rw [List.length_cons] at enoughCalls; omega)
      have count : ((head.length : Int) + 2 - 2).toNat = head.length := by omega
      simp only [readChunks, mjpgReadChunk, if_neg read, returned]
      rw [if_neg (by omega), if_neg (by omega), later, count, chunk]
      rfl

/-- The first call also reads, and drops, what precedes the first marker. -/
theorem readChunks_zeroed (bsbuf : List Byte) (calls : Nat)
    (fits : ∀ stretch ∈ soiStretches pieces.flatten,
      stretch.length + 1 + mjpgFillSize ≤ streamBufSize)
    (enoughCalls : (soiChunks pieces.flatten).length + 1 ≤ calls) :
    readChunks pieceRead fuel calls (.zeroed bsbuf) pieces =
      some (soiChunks pieces.flatten) := by
  have waiting : Waiting (compact (.zeroed bsbuf)) pieces
      ((soiSplit pieces.flatten).1 :: (soiSplit pieces.flatten).2) :=
    .more _ _ _ _ rfl (Nat.zero_le _) (fun one => by cases one) (scan_zeroed pieces.flatten)
  obtain ⟨final, rest, returned, rdPtr, _, suffix, waiting'⟩ :=
    mjpgReadChunkTillSoi_chunk ok enough waiting (fits _ (by simp [soiStretches]))
  have shorter := suffix.length_le
  have later : readChunks pieceRead fuel calls final rest =
      some (soiSplit pieces.flatten).2 :=
    readChunks_waiting (fun one member => ok one (suffix.subset member)) (by omega) calls
      (by omega) waiting' (fun one member => fits one (by simp [soiStretches, member]))
      enoughCalls
  obtain ⟨calls, rfl⟩ : ∃ less, calls = less + 1 := ⟨calls - 1, by omega⟩
  -- the first call goes on exactly as a call on the state after the prefix
  have first : mjpgReadChunk pieceRead fuel (.zeroed bsbuf) pieces =
      mjpgReadChunk pieceRead fuel final rest := by
    rw [mjpgReadChunk, if_pos (show (MjpgState.zeroed bsbuf).rdPtr = 0 from rfl), returned]
    simp only
    rw [if_neg (by omega), mjpgReadChunk, if_neg (by omega)]
  rw [readChunks, first]
  rw [readChunks] at later
  exact later

end Calls

/-- What the chunks of a stream have to be. -/
structure SplitsAtSoi (stream : List Byte) (chunks : List (List Byte)) : Prop where
  concat : chunks.flatten = fromMarker 0xFF 0xD8 stream
  pieces : ∀ chunk ∈ chunks, MarkerPiece 0xFF 0xD8 chunk

/-- However a stream is cut into pieces, the chunks are those of the stream: they
make up the rest of it from its first SOI marker on, and each begins with a
marker and holds no other.  A stretch has to fit the buffer together with the
first byte of the marker that closes it and one more fill. -/
theorem mjpgReadChunk_splits (pieces : List (List Byte)) (bsbuf : List Byte) (fuel calls : Nat)
    (nonempty : ∀ piece ∈ pieces, piece ≠ [])
    (small : ∀ piece ∈ pieces, piece.length ≤ mjpgFillSize)
    (fits : ∀ stretch ∈ soiStretches pieces.flatten,
      stretch.length + 1 + mjpgFillSize ≤ streamBufSize)
    (enough : pieces.length + 2 ≤ fuel)
    (enoughCalls : (soiChunks pieces.flatten).length + 1 ≤ calls) :
    readChunks pieceRead fuel calls (.zeroed bsbuf) pieces =
        some (soiChunks pieces.flatten) ∧
      SplitsAtSoi pieces.flatten (soiChunks pieces.flatten) := by
  refine ⟨?_, markerSplit_fromMarker _, markerSplit_pieces (by decide) _⟩
  exact readChunks_zeroed (fun one member => ⟨nonempty one member, small one member⟩) enough
    bsbuf calls fits enoughCalls

/-- A marker across two pieces, and an FF as the last byte. -/
theorem mjpgReadChunk_splits_across :
    let pieces : List (List Byte) := [[7, 0xFF], [0xD8, 1, 0xFF, 0xFF], [0xD8, 0xFF]]
    readChunks pieceRead 5 3 (.zeroed []) pieces = some [[0xFF, 0xD8, 1, 0xFF],
        [0xFF, 0xD8, 0xFF]] ∧
      SplitsAtSoi pieces.flatten [[0xFF, 0xD8, 1, 0xFF], [0xFF, 0xD8, 0xFF]] :=
  mjpgReadChunk_splits [[7, 0xFF], [0xD8, 1, 0xFF, 0xFF], [0xD8, 0xFF]] [] 5 3 (by decide)
    (by decide) (by decide) (by decide) (by decide)

end ImxTest.Vpu.Mjpg
