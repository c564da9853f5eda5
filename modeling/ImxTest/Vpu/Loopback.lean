import ImxTest.Vpu.Streaming

/-!
# `encdec_test`: from the encoder straight to the decoder

The loop-back test copies each header and each frame from the encoder's buffer into the
decoder's ring.  A piece that does not fit at its turn is not copied at all, and the test
goes on: a frame is reported on the console, a header is not.
-/

set_option autoImplicit false

namespace ImxTest.Vpu.Loopback

open ImxTest.Lib.ByteMem
open ImxTest.Lib.Run
open ImxTest.Vpu.FillBsbuffer
open ImxTest.Vpu.EncoderNet (Format HeaderType Header HeaderOutputs)
open ImxTest.Vpu.Streaming (Buffered Fresh)

/-! ## The test -/

/-- What the test tells its two sides apart by. -/
structure Settings where
  format : Format
  mx27 : Bool
  mx6x : Bool
  deriving DecidableEq, Repr

/-- A piece of the stream at its turn. -/
structure Piece where
  frame : Bool
  bytes : List Byte
  /-- The free space of the decoder's ring. -/
  room : Nat
  lib : LibRet
  /-- The message `Oops...`. -/
  reported : Bool
  deriving DecidableEq, Repr

structure State where
  ring : DecRing
  /-- Everything handed over, oldest first. -/
  pieces : List Piece
  /-- A function has returned -1, and the loop is left. -/
  failed : Bool

/-- The memory from the pointer `buf` on. -/
def memoryOf (bytes : List Byte) : Nat → Byte := fun i => bytes.getD i 0

/-- `dec_fill_bsbuffer` on a header; the result is whether it returned at least 0. -/
def fillHeader (map : BsMap) (lib : LibRet) (bytes : List Byte) (state : State) :
    Bool × State :=
  let out := loopbackFillBsbuffer map lib state.ring (memoryOf bytes) bytes.length
  (0 ≤ out.ret,
    { state with
      ring := out.ring
      pieces := state.pieces ++ [⟨false, bytes, state.ring.space, lib, false⟩] })

/-- `dec_fill_bsbuffer` on a frame, and the message behind it. -/
def fillFrame (map : BsMap) (lib : LibRet) (bytes : List Byte) (state : State) :
    Bool × State :=
  let out := loopbackFillBsbuffer map lib state.ring (memoryOf bytes) bytes.length
  (0 ≤ out.ret,
    { state with
      ring := out.ring
      pieces := state.pieces ++
        [⟨true, bytes, state.ring.space, lib, decide (0 ≤ out.ret ∧ out.ret ≠ bytes.length)⟩] })

def Settings.headers (settings : Settings) : List Header :=
  match settings.format with
  | .mpeg4 =>
      (if settings.mx27 then [.put .vosHeader, .put .visHeader] else []) ++ [.put .volHeader]
  | .avc => [.put .spsRbsp, .put .ppsRbsp]
  | .mjpg => if settings.mx6x then [.jpegHeader] else []
  | .h263 => []

/-- What the libraries answer to `encoder_fill_headers`. -/
structure HeaderAnswers where
  outputs : HeaderOutputs
  lib : Header → LibRet

def fillHeaders (map : BsMap) (answers : HeaderAnswers) : List Header → State → Bool × State
  | [], state => (true, state)
  | header :: rest, state =>
      match answers.outputs.output header with
      | none => (false, state)
      | some bytes =>
          let (filled, state) := fillHeader map (answers.lib header) bytes state
          if filled then fillHeaders map answers rest state else (false, state)

def encoderFillHeaders (settings : Settings) (map : BsMap) (answers : HeaderAnswers)
    (state : State) : Bool × State :=
  fillHeaders map answers settings.headers state

structure Turn where
  headers : HeaderAnswers
  getCaptureData : Bool
  startOneFrame : Bool
  /-- Busy until `loop_id` is 10, which resets the encoder. -/
  hangs : Bool
  getOutputInfo : Bool
  frame : List Byte
  lib : LibRet

/-- For motion JPEG on an i.MX6 the header goes before each frame. -/
def Settings.headerPerFrame (settings : Settings) : Bool :=
  settings.mx6x && settings.format = .mjpg

def encode (settings : Settings) (map : BsMap) (turn : Turn) (state : State) : Bool × State :=
  let (ok, state) :=
    if settings.headerPerFrame then encoderFillHeaders settings map turn.headers state
    else (true, state)
  if ok = false then (false, state)
  else if turn.getCaptureData = false then (false, state)
  else if turn.startOneFrame = false then (false, state)
  else if turn.hangs then (false, state)
  else if turn.getOutputInfo = false then (false, state)
  else fillFrame map turn.lib turn.frame state

/-- What `encdec_test` does to the ring, in any order. -/
inductive Event where
  /-- The headers before the loop. -/
  | headers (answers : HeaderAnswers)
  | encode (turn : Turn)
  /-- The decoder takes bytes, in `decoder_parse` or `decode()`. -/
  | decode (n : Nat)

def step (settings : Settings) (map : BsMap) (state : State) : Event → Option State
  | .headers answers =>
      if state.failed then none
      else
        let (ok, next) := encoderFillHeaders settings map answers state
        some { next with failed := !ok }
  | .encode turn =>
      if state.failed then none
      else
        let (ok, next) := encode settings map turn state
        some { next with failed := !ok }
  | .decode n =>
      if n ≤ state.ring.level then some { state with ring := state.ring.consume n } else none

/-! ## Pieces go whole or not at all -/

def Piece.Kept (piece : Piece) : Prop :=
  piece.lib = libOk ∧ piece.bytes.length ≤ piece.room

instance (piece : Piece) : Decidable piece.Kept := inferInstanceAs (Decidable (_ ∧ _))

def keptBytes (pieces : List Piece) : List Byte :=
  pieces.flatMap fun piece => if piece.Kept then piece.bytes else []

theorem keptBytes_append (first second : List Piece) :
    keptBytes (first ++ second) = keptBytes first ++ keptBytes second :=
  List.flatMap_append

theorem readAt_memoryOf (bytes : List Byte) : readAt (memoryOf bytes) 0 bytes.length = bytes := by
  apply List.ext_getElem
  · simp
  · intro i _ inside
    simp [readAt, memoryOf, inside]

theorem readAt_memoryOf_split (bytes : List Byte) (room : Nat) (inside : room ≤ bytes.length) :
    readAt (memoryOf bytes) 0 room ++ readAt (memoryOf bytes) room (bytes.length - room) =
      bytes := by
  have whole := readAt_add (memoryOf bytes) 0 room (bytes.length - room)
  rw [Nat.add_sub_cancel' inside, readAt_memoryOf, Nat.zero_add] at whole
  exact whole.symm

structure Filled (map : BsMap) (lib : LibRet) (ring : DecRing) (bytes : List Byte)
    (out : LoopbackOut) : Prop where
  wf : out.ring.Wf
  buffered : Buffered map ring → Buffered map out.ring
  committed : out.ring.committed =
    ring.committed ++ if lib = libOk ∧ bytes.length ≤ ring.space then bytes else []
  ret : lib = libOk → out.ret = if bytes.length ≤ ring.space then (bytes.length : Int) else 0

theorem loopbackUpdate_filled {map : BsMap} {lib : LibRet} {ring : DecRing}
    {bytes : List Byte} {stores : List (Nat × List Byte)} {copied : DecRing} (wf : ring.Wf)
    (got : lib.getOk = true) (fits : bytes.length ≤ ring.space)
    (copiedWf : copied.Wf) (space : copied.space = ring.space)
    (kept : copied.committed = ring.committed)
    (commits : (copied.update map bytes.length).committed = ring.committed ++ bytes)
    (writes : WritesFree map ring (loopbackUpdate map lib copied bytes.length stores).ring
      (loopbackUpdate map lib copied bytes.length stores).stores) :
    Filled map lib ring bytes (loopbackUpdate map lib copied bytes.length stores) := by
  refine ⟨?_, fun buffered => buffered.writes wf writes, ?_, ?_⟩
  · unfold loopbackUpdate
    split
    · exact copiedWf
    · exact copiedWf.update map _ (by simpa [space] using fits)
  · unfold loopbackUpdate
    split
    · rename_i failed
      have different : lib ≠ libOk := by
        rintro rfl
        cases failed
      simp [kept, different]
    · rename_i updated
      have working : lib = libOk := by
        cases lib
        simp_all [libOk]
      simpa [working, fits] using commits
  · rintro rfl
    simp [loopbackUpdate, libOk, fits]

theorem loopbackFillBsbuffer_filled (map : BsMap) (lib : LibRet) (ring : DecRing)
    (bytes : List Byte) (wf : ring.Wf) :
    Filled map lib ring bytes
      (loopbackFillBsbuffer map lib ring (memoryOf bytes) bytes.length) := by
  have below := wf.writePos_lt
  have writes := loopbackFillBsbuffer_writesFree map lib ring (memoryOf bytes) bytes.length below
  have level : ring.space ≤ streamBufSize := Nat.sub_le _ _
  have passes := passes_end_iff map below bytes.length
  have room := room_eq map below
  revert writes
  unfold loopbackFillBsbuffer
  simp only [Int.toNat_natCast, targetAddr_eq map ring below, room]
  split
  · rename_i failed
    intro _
    have different : lib ≠ libOk := by
      rintro rfl
      cases failed
    exact ⟨wf, id, by simp [different], fun working => absurd working different⟩
  rename_i notFailed
  have got : lib.getOk = true := by simpa using notFailed
  by_cases none : ring.space = 0 ∨ (bytes.length : Int) ≤ 0
  · rw [if_pos none]
    intro _
    rcases none with full | empty
    · cases bytes with
      | nil => exact ⟨wf, id, by simp, by simp⟩
      | cons byte rest => exact ⟨wf, id, by simp [full], by simp [full]⟩
    · have nothing : bytes = [] := List.length_eq_zero_iff.mp (by omega)
      exact ⟨wf, id, by simp [nothing], by simp [nothing]⟩
  rw [if_neg none]
  by_cases small : ring.space < bytes.length
  · rw [if_pos small]
    intro _
    have more : ¬ bytes.length ≤ ring.space := by omega
    exact ⟨wf, id, by simp [more], by simp [more]⟩
  rw [if_neg small]
  by_cases wraps : streamBufSize < ring.writePos + bytes.length
  · rw [if_pos ((passes (by omega)).mpr wraps)]
    have inside : streamBufSize - ring.writePos ≤ bytes.length := by omega
    have commits := commit_wrap map ring
      (readAt (memoryOf bytes) 0 (streamBufSize - ring.writePos))
      (readAt (memoryOf bytes) (streamBufSize - ring.writePos)
        (bytes.length - (streamBufSize - ring.writePos)))
      (by simp only [readAt_length]; omega) (by simp only [readAt_length]; omega)
      (by simp only [readAt_length]; omega)
    rw [readAt_length, readAt_length, Nat.add_sub_cancel' inside,
      readAt_memoryOf_split bytes _ inside] at commits
    exact loopbackUpdate_filled wf got (by omega) ((wf.store _ _).store _ _) rfl rfl commits
  · rw [if_neg (fun more => wraps ((passes (by omega)).mp more)), readAt_memoryOf]
    exact loopbackUpdate_filled wf got (by omega) (wf.store _ _) rfl rfl
      (commit_straight map ring bytes (by omega))

/-! ## Runs -/

/-- What every run keeps: the decoder has been given the pieces that fitted, one after the
other, and every frame that did not fit has been reported. -/
structure Passed (map : BsMap) (state : State) : Prop where
  wf : state.ring.Wf
  buffered : Buffered map state.ring
  committed : state.ring.committed = keptBytes state.pieces
  reported : ∀ piece ∈ state.pieces, piece.frame = true → piece.lib = libOk →
    (piece.reported = true ↔ ¬ piece.Kept)

section Steps
variable {map : BsMap} {state : State}

/-- A piece at the end of a state that has passed everything before it. -/
theorem Passed.piece (passed : Passed map state) (lib : LibRet) (bytes : List Byte)
    (frame reported : Bool)
    (told : frame = true → lib = libOk → (reported = true ↔ ¬ bytes.length ≤ state.ring.space)) :
    Passed map
      { state with
        ring := (loopbackFillBsbuffer map lib state.ring (memoryOf bytes) bytes.length).ring
        pieces := state.pieces ++ [⟨frame, bytes, state.ring.space, lib, reported⟩] } := by
  have filled := loopbackFillBsbuffer_filled map lib state.ring bytes passed.wf
  refine ⟨filled.wf, filled.buffered passed.buffered, ?_, ?_⟩
  · simp only [filled.committed, keptBytes_append, passed.committed]
    by_cases kept : lib = libOk ∧ bytes.length ≤ state.ring.space
    · simp [keptBytes, Piece.Kept, kept]
    · simp [keptBytes, Piece.Kept, kept]
  · intro piece member isFrame working
    rcases List.mem_append.mp member with early | late
    · exact passed.reported piece early isFrame working
    · obtain rfl := List.mem_singleton.mp late
      simp only at isFrame working
      simp only [told isFrame working, Piece.Kept, working, true_and]

theorem Passed.fillHeader (passed : Passed map state) (lib : LibRet) (bytes : List Byte) :
    Passed map (fillHeader map lib bytes state).2 :=
  passed.piece lib bytes false false (by simp)

theorem Passed.fillFrame (passed : Passed map state) (lib : LibRet) (bytes : List Byte) :
    Passed map (fillFrame map lib bytes state).2 := by
  refine passed.piece lib bytes true _ fun _ working => ?_
  have ret := (loopbackFillBsbuffer_filled map lib state.ring bytes passed.wf).ret working
  rw [ret]
  split
  · rename_i fits
    simp [fits]
  · rename_i more
    have positive : bytes.length ≠ 0 := by omega
    simp [more]
    omega

theorem Passed.fillHeaders (answers : HeaderAnswers) (headers : List Header) {state : State}
    (passed : Passed map state) : Passed map (fillHeaders map answers headers state).2 := by
  induction headers generalizing state with
  | nil => exact passed
  | cons header rest ih =>
      unfold Loopback.fillHeaders
      cases answers.outputs.output header with
      | none => exact passed
      | some bytes =>
          have next := passed.fillHeader (answers.lib header) bytes
          simp only
          split
          · exact ih next
          · exact next

theorem Passed.encode (settings : Settings) (turn : Turn) (passed : Passed map state) :
    Passed map (encode settings map turn state).2 := by
  have headers : Passed map (if settings.headerPerFrame then
      encoderFillHeaders settings map turn.headers state else (true, state)).2 := by
    split
    · exact passed.fillHeaders turn.headers settings.headers
    · exact passed
  unfold Loopback.encode
  generalize (if settings.headerPerFrame then encoderFillHeaders settings map turn.headers state
    else (true, state)) = filled at headers ⊢
  obtain ⟨ok, next⟩ := filled
  simp only
  repeat' split
  all_goals first
    | exact headers
    | exact headers.fillFrame turn.lib turn.frame

theorem Passed.step {settings : Settings} (state : State) (event : Event) (next : State)
    (passed : Passed map state) (moves : step settings map state event = some next) :
    Passed map next := by
  cases event with
  | headers answers =>
      simp only [Loopback.step] at moves
      split at moves
      · cases moves
      · cases moves
        obtain ⟨wf, buffered, committed, reported⟩ :=
          passed.fillHeaders answers settings.headers
        exact ⟨wf, buffered, committed, reported⟩
  | encode turn =>
      simp only [Loopback.step] at moves
      split at moves
      · cases moves
      · cases moves
        obtain ⟨wf, buffered, committed, reported⟩ := passed.encode settings turn
        exact ⟨wf, buffered, committed, reported⟩
  | decode n =>
      simp only [Loopback.step] at moves
      split at moves
      · rename_i fits
        cases moves
        exact ⟨passed.wf.consume n fits, passed.buffered.consume n fits, passed.committed,
          passed.reported⟩
      · cases moves

end Steps

/-! ## The whole stream -/

def allBytes (pieces : List Piece) : List Byte := pieces.flatMap Piece.bytes

theorem keptBytes_length_le (pieces : List Piece) :
    (keptBytes pieces).length ≤ (allBytes pieces).length := by
  induction pieces with
  | nil => exact le_rfl
  | cons piece rest ih =>
      simp only [keptBytes, allBytes, List.flatMap_cons, List.length_append] at ih ⊢
      split
      · omega
      · simp only [List.length_nil]
        omega

theorem keptBytes_eq_iff (pieces : List Piece) :
    keptBytes pieces = allBytes pieces ↔ ∀ piece ∈ pieces, piece.bytes = [] ∨ piece.Kept := by
  induction pieces with
  | nil => simp [keptBytes, allBytes]
  | cons piece rest ih =>
      rw [List.forall_mem_cons, ← ih]
      simp only [keptBytes, allBytes, List.flatMap_cons]
      by_cases kept : piece.Kept
      · simp [kept]
      · rw [if_neg kept, List.nil_append]
        constructor
        · intro same
          have shorter := keptBytes_length_le rest
          have lengths := congrArg List.length same
          rw [List.length_append] at lengths
          simp only [keptBytes, allBytes] at shorter
          have empty : piece.bytes = [] := List.length_eq_zero_iff.mp (by omega)
          rw [empty, List.nil_append] at same
          exact ⟨.inl empty, same⟩
        · rintro ⟨empty | kept', same⟩
          · rw [empty, List.nil_append]
            exact same
          · exact absurd kept' kept

/-- The test before the first header. -/
structure Starts (start : State) : Prop where
  wf : start.ring.Wf
  empty : start.ring.level = 0
  committed : start.ring.committed = []
  pieces : start.pieces = []

/-- In every run the decoder is given the headers and frames that fitted into its ring at
their turn, whole and in order, and has in its ring the end of them; nothing is missing
exactly when everything fitted, and a frame that is missing has been reported. -/
theorem loopback_passes_whole_pieces (settings : Settings) (map : BsMap) (events : List Event)
    (start final : State) (starts : Starts start)
    (run : runEvents (step settings map) events start = some final) :
    final.ring.committed = keptBytes final.pieces ∧
      final.ring.unread map final.ring.mem <:+ final.ring.committed ∧
      (final.ring.committed = allBytes final.pieces ↔
        ∀ piece ∈ final.pieces, piece.bytes = [] ∨ piece.Kept) ∧
      (∀ piece ∈ final.pieces, piece.frame = true → piece.lib = libOk →
        (piece.reported = true ↔ ¬ piece.Kept)) := by
  have passed : Passed map start := by
    refine ⟨starts.wf, ?_, ?_, ?_⟩
    · simp [Buffered, DecRing.unread, starts.empty, readCyclic]
    · rw [starts.committed, starts.pieces]
      rfl
    · simp [starts.pieces]
  have done := runEvents_preserves Passed.step events start final passed run
  refine ⟨done.committed, done.buffered, ?_, done.reported⟩
  rw [done.committed]
  exact keptBytes_eq_iff final.pieces

def h263Settings : Settings := ⟨.h263, false, true⟩

def noHeaders : HeaderAnswers := ⟨⟨fun _ => [], none, none⟩, fun _ => libOk⟩

def shortEvents : List Event :=
  [.headers noHeaders, .encode ⟨noHeaders, true, true, false, true, [1, 2, 3], libOk⟩, .decode 2,
    .encode ⟨noHeaders, true, true, false, true, [4], libOk⟩]

def shortStart : State := ⟨emptyRing, [], false⟩

theorem loopback_passes_whole_pieces_short :
    ∃ final, runEvents (step h263Settings lowMap) shortEvents shortStart = some final ∧
      final.ring.committed = keptBytes final.pieces ∧
      final.ring.unread lowMap final.ring.mem <:+ final.ring.committed ∧
      (final.ring.committed = allBytes final.pieces ↔
        ∀ piece ∈ final.pieces, piece.bytes = [] ∨ piece.Kept) ∧
      (∀ piece ∈ final.pieces, piece.frame = true → piece.lib = libOk →
        (piece.reported = true ↔ ¬ piece.Kept)) := by
  have runs : (runEvents (step h263Settings lowMap) shortEvents shortStart).isSome := by decide
  obtain ⟨final, run⟩ := Option.isSome_iff_exists.mp runs
  exact ⟨final, run, loopback_passes_whole_pieces h263Settings lowMap shortEvents shortStart final
    ⟨emptyRing_wf, rfl, rfl, rfl⟩ run⟩

end ImxTest.Vpu.Loopback
