import ImxTest.Vpu.UdpStream

/-!
# `encoder_start` with a network destination

The encoder without a ring buffer (`ringBufferEnable == 0`) writes each header
and each frame with one `vpu_write`, and closes the stream with a write of length
zero.  On the network every write is one datagram, and it is the length of a
write, not the place in the loop, that makes `udp_send` put out the end of the
stream.
-/

set_option autoImplicit false

namespace ImxTest.Vpu.EncoderNet

open ImxTest.Vpu.Udp
open ImxTest.Vpu.UdpStream

/-! ## The encoder -/

inductive Format where
  | mpeg4
  | h263
  | avc
  | mjpg
  deriving DecidableEq, Repr

/-- The headers that `ENC_PUT_MP4_HEADER` and `ENC_PUT_AVC_HEADER` place in the
bitstream buffer. -/
inductive HeaderType where
  | vosHeader
  | visHeader
  | volHeader
  | spsRbsp
  | spsRbspMvc
  | ppsRbsp
  | ppsRbspMvc
  deriving DecidableEq, Repr

/-- A header as `encoder_fill_headers` obtains it. -/
inductive Header where
  | put (headerType : HeaderType)
  | videoHeader
  | jpegHeader
  deriving DecidableEq, Repr

/-- What the library answers during one call of `encoder_fill_headers`.  The
results of the put commands are not looked at; the two others need a buffer, and
`none` is a failure of `malloc` or of the command. -/
structure HeaderOutputs where
  put : HeaderType → List Byte
  videoHeader : Option (List Byte)
  jpegHeader : Option (List Byte)

def HeaderOutputs.output (outputs : HeaderOutputs) : Header → Option (List Byte)
  | .put headerType => some (outputs.put headerType)
  | .videoHeader => outputs.videoHeader
  | .jpegHeader => outputs.jpegHeader

structure Encode where
  format : Format
  mx6x : Bool
  mvcExtension : Bool
  mvcParasetRefreshEn : Bool
  avcVuiPresentFlag : Bool
  encPicwidth : Nat
  encPicheight : Nat
  srcPicwidth : Nat
  srcPicheight : Nat
  /-- `src_scheme == PATH_V4L2`. -/
  srcV4l2 : Bool
  count : Int
  deriving DecidableEq, Repr

/-- The headers of `encoder_fill_headers` in order. -/
def Encode.headers (enc : Encode) : List Header :=
  match enc.format with
  | .mpeg4 => [.put .vosHeader, .put .visHeader, .put .volHeader]
  | .avc =>
      if enc.mvcExtension && enc.mvcParasetRefreshEn then []
      else
        [if enc.avcVuiPresentFlag then .videoHeader else .put .spsRbsp] ++
          (if enc.mvcExtension then [.put .spsRbspMvc] else []) ++ [.put .ppsRbsp] ++
          (if enc.mvcExtension then [.put .ppsRbspMvc] else [])
  | .mjpg => if enc.mx6x then [.jpegHeader] else []
  | .h263 => []

inductive EncEvent where
  /-- The encoder reports a header or a frame. -/
  | produced (bytes : List Byte)
  | vpuWrite (bytes : List Byte)
  /-- The encoding loop is left; what follows is `err2`. -/
  | loopFinished
  deriving DecidableEq, Repr

/-- A write of reported bytes.  Over a network that takes every datagram it does
not fail. -/
def encReadbsResetBuffer (bytes : List Byte) : List EncEvent := [.vpuWrite bytes]

def fillHeaders (outputs : HeaderOutputs) : List Header → List EncEvent × Int
  | [] => ([], 0)
  | header :: rest =>
      match outputs.output header with
      | none => ([], -1)
      | some bytes =>
          let (events, ret) := fillHeaders outputs rest
          (.produced bytes :: encReadbsResetBuffer bytes ++ events, ret)

def encoderFillHeaders (enc : Encode) (outputs : HeaderOutputs) : List EncEvent × Int :=
  fillHeaders outputs enc.headers

/-- What one turn of the encoding loop meets. -/
structure Turn where
  /-- `v4l_get_capture_data` or `read_from_file` gave a picture. -/
  source : Bool
  headers : HeaderOutputs
  startOneFrame : Bool
  /-- Busy until `loop_id` is 20, which resets the encoder. -/
  hangs : Bool
  getOutputInfo : Bool
  frame : List Byte
  quitflag : Bool

inductive Exit where
  | running
  | finished
  | aborted
  deriving DecidableEq, Repr

/-- On an i.MX6 a motion JPEG header goes before each frame. -/
def Encode.headerPerFrame (enc : Encode) : Bool := enc.mx6x && enc.format = .mjpg

/-- One turn up to the decision to leave: the events, and whether the loop goes
on. -/
def encodeTurn (enc : Encode) (turn : Turn) (frameId : Int) : List EncEvent × Exit :=
  if turn.source = false then ([], .finished)
  else
    let (headers, ret) :=
      if enc.headerPerFrame then encoderFillHeaders enc turn.headers else ([], 0)
    if ret ≠ 0 then (headers, .finished)
    else if turn.startOneFrame = false then (headers, .finished)
    else if turn.hangs then (headers, .aborted)
    else if turn.getOutputInfo = false then (headers, .finished)
    else if turn.quitflag then (headers ++ [.produced turn.frame], .finished)
    else
      (headers ++ .produced turn.frame :: encReadbsResetBuffer turn.frame,
        if enc.count ≠ 0 ∧ frameId + 1 ≥ enc.count then .finished else .running)

def encodeLoop (enc : Encode) : List Turn → Int → List EncEvent × Exit
  | [], _ => ([], .running)
  | turn :: rest, frameId =>
      let (events, exit) := encodeTurn enc turn frameId
      if exit = .running then
        let (later, exit) := encodeLoop enc rest (frameId + 1)
        (events ++ later, exit)
      else (events, exit)

/-- What happens around one `encoder_start`. -/
structure EncRun where
  headers : HeaderOutputs
  /-- The results of the report commands that are enabled. -/
  reports : List Bool
  startCapturing : Bool
  turns : List Turn

def setupFails (enc : Encode) (run : EncRun) : Bool :=
  enc.encPicwidth > enc.srcPicwidth || enc.encPicheight > enc.srcPicheight ||
    run.reports.any (! ·) || (enc.srcV4l2 && !run.startCapturing)

def encoderStart (enc : Encode) (run : EncRun) : List EncEvent :=
  let (headers, ret) :=
    if !enc.headerPerFrame then encoderFillHeaders enc run.headers else ([], 0)
  if ret ≠ 0 then headers
  else if setupFails enc run then headers
  else
    let (events, exit) := encodeLoop enc run.turns 0
    if exit = .finished then headers ++ events ++ [.loopFinished, .vpuWrite []]
    else headers ++ events

/-! ## The network -/

def EncEvent.written : EncEvent → Option (List Byte)
  | .produced _ => none
  | .vpuWrite bytes => some bytes
  | .loopFinished => none

def EncEvent.reported : EncEvent → List Byte
  | .produced bytes => bytes
  | .vpuWrite _ => []
  | .loopFinished => []

def produced (trace : List EncEvent) : List Byte := trace.flatMap EncEvent.reported

def writes (trace : List EncEvent) : List (List Byte) := trace.filterMap EncEvent.written

def sendAll (stale : Nat → Int) : SendState → List (List Byte) → Option (List (List Byte))
  | _, [] => some []
  | state, buf :: rest => do
      let (datagram, next) ← udpSend state (stale rest.length) buf
      let datagrams ← sendAll stale next rest
      some (datagram :: datagrams)

/-- A receiver that has all the datagrams in order reports the end of the stream
only after every byte the encoder produced, and the end is put out only after the
encoding loop. -/
structure CompleteStream (trace : List EncEvent) (datagrams : List (List Byte)) : Prop where
  stream : ∀ nbuf noffset events calls results final rest,
    nbuf.length = defaultPktSize → Quiet events → arrivals events = datagrams →
    (∀ call ∈ calls, 0 < call.n) →
    recvCalls calls events (RecvState.initial nbuf noffset) = some (results, final, rest) →
    ∀ before result after, results = before ++ result :: after → result.ret = 0 →
      delivered before = produced trace
  closing : ∀ before after, trace = before ++ .vpuWrite [] :: after →
    .loopFinished ∈ before

/-! ## When every write has a length -/

def headersPositive (outputs : HeaderOutputs) : List Header → Prop
  | [] => True
  | header :: rest =>
      match outputs.output header with
      | none => True
      | some bytes => bytes ≠ [] ∧ headersPositive outputs rest

/-- Every header of the turn has a positive size, and so has the frame, unless
`quitflag` keeps it from being written: then its size is zero. -/
def turnPositive (enc : Encode) (turn : Turn) : Prop :=
  turn.source = true →
    (enc.headerPerFrame = true → headersPositive turn.headers enc.headers) ∧
    ((enc.headerPerFrame = true → (encoderFillHeaders enc turn.headers).2 = 0) →
      turn.startOneFrame = true → turn.hangs = false → turn.getOutputInfo = true →
      (turn.frame = [] ↔ turn.quitflag = true))

def turnsPositive (enc : Encode) : List Turn → Int → Prop
  | [], _ => True
  | turn :: rest, frameId =>
      turnPositive enc turn ∧
        ((encodeTurn enc turn frameId).2 = .running → turnsPositive enc rest (frameId + 1))

def AllPositive (enc : Encode) (run : EncRun) : Prop :=
  (enc.headerPerFrame = false → headersPositive run.headers enc.headers) ∧
    ((enc.headerPerFrame = false → (encoderFillHeaders enc run.headers).2 = 0) →
      setupFails enc run = false → turnsPositive enc run.turns 0)

/-! ## The shape of a trace -/

/-- Pieces of the stream, each written as it is reported. -/
def emit (pieces : List (List Byte)) : List EncEvent :=
  pieces.flatMap fun piece => [.produced piece, .vpuWrite piece]

/-- Pieces that are written, and at most one more that is not. -/
def traceOf (pieces : List (List Byte)) (dropped : Option (List Byte)) : List EncEvent :=
  emit pieces ++ dropped.toList.map EncEvent.produced

@[simp]
theorem emit_append (first second : List (List Byte)) :
    emit (first ++ second) = emit first ++ emit second := by
  simp [emit]

theorem emit_traceOf (first pieces : List (List Byte)) (dropped : Option (List Byte)) :
    emit first ++ traceOf pieces dropped = traceOf (first ++ pieces) dropped := by
  simp [traceOf]

theorem fillHeaders_shape (outputs : HeaderOutputs) (headers : List Header) :
    ∃ pieces, (fillHeaders outputs headers).1 = emit pieces ∧
      (headersPositive outputs headers ↔ ∀ piece ∈ pieces, piece ≠ []) := by
  induction headers with
  | nil => exact ⟨[], rfl, by simp [headersPositive]⟩
  | cons header rest ih =>
      obtain ⟨pieces, shape, positive⟩ := ih
      cases output : outputs.output header with
      | none => exact ⟨[], by simp [fillHeaders, output, emit], by simp [headersPositive, output]⟩
      | some bytes =>
          refine ⟨bytes :: pieces, ?_, ?_⟩
          · simp [fillHeaders, output, shape, emit, encReadbsResetBuffer]
          · simp [headersPositive, output, positive]

/-- A call of `encoder_fill_headers` that is made or not, and whether it is passed. -/
theorem encoderFillHeaders_shape (enc : Encode) (outputs : HeaderOutputs) (called : Bool) :
    ∃ pieces ret,
      (if called then encoderFillHeaders enc outputs else ([], 0)) = (emit pieces, ret) ∧
      ((called = true → headersPositive outputs enc.headers) ↔
        ∀ piece ∈ pieces, piece ≠ []) ∧
      ((called = true → (encoderFillHeaders enc outputs).2 = 0) ↔ ret = 0) := by
  cases called with
  | false => exact ⟨[], 0, rfl, by simp, by simp⟩
  | true =>
      obtain ⟨pieces, shape, positive⟩ := fillHeaders_shape outputs enc.headers
      refine ⟨pieces, (fillHeaders outputs enc.headers).2, ?_, by simpa using positive, ?_⟩
      · rw [← shape]
        rfl
      · simp [encoderFillHeaders]

theorem encodeTurn_shape (enc : Encode) (turn : Turn) (frameId : Int) :
    ∃ pieces dropped, (encodeTurn enc turn frameId).1 = traceOf pieces dropped ∧
      (dropped ≠ none → (encodeTurn enc turn frameId).2 = .finished) ∧
      (turnPositive enc turn ↔ (∀ piece ∈ pieces, piece ≠ []) ∧ ∀ frame ∈ dropped, frame = []) := by
  obtain ⟨pieces, ret, headers, positive, passes⟩ :=
    encoderFillHeaders_shape enc turn.headers enc.headerPerFrame
  unfold encodeTurn turnPositive
  rw [headers, positive, passes]
  by_cases noSource : turn.source = false
  · exact ⟨[], none, by simp [noSource, traceOf, emit], by simp, by simp [noSource]⟩
  have source : turn.source = true := by simpa using noSource
  by_cases failed : ret ≠ 0
  · exact ⟨pieces, none, by simp [source, traceOf, failed], by simp, by simp [source, failed]⟩
  obtain rfl : ret = 0 := by omega
  by_cases starts : turn.startOneFrame = true
  · by_cases hangs : turn.hangs = true
    · exact ⟨pieces, none, by simp [source, starts, hangs, traceOf], by simp,
        by simp [source, hangs]⟩
    · by_cases outputs : turn.getOutputInfo = true
      · by_cases quits : turn.quitflag = true
        · exact ⟨pieces, some turn.frame,
            by simp [source, starts, hangs, outputs, quits, traceOf],
            by simp [source, starts, hangs, outputs, quits],
            by simp [source, starts, hangs, outputs, quits]⟩
        · refine ⟨pieces ++ [turn.frame], none, ?_, by simp, ?_⟩
          · simp [source, starts, hangs, outputs, quits, traceOf, emit, encReadbsResetBuffer]
          · simp only [source, starts, hangs, outputs, quits, List.mem_append,
              List.mem_singleton, forall_const, or_imp, forall_and, forall_eq]
            simp
      · exact ⟨pieces, none, by simp [source, starts, hangs, outputs, traceOf], by simp,
          by simp [source, outputs]⟩
  · exact ⟨pieces, none, by simp [source, starts, traceOf], by simp, by simp [source, starts]⟩

theorem encodeLoop_shape (enc : Encode) (turns : List Turn) (frameId : Int) :
    ∃ pieces dropped, (encodeLoop enc turns frameId).1 = traceOf pieces dropped ∧
      (dropped ≠ none → (encodeLoop enc turns frameId).2 = .finished) ∧
      (turnsPositive enc turns frameId ↔
        (∀ piece ∈ pieces, piece ≠ []) ∧ ∀ frame ∈ dropped, frame = []) := by
  induction turns generalizing frameId with
  | nil => exact ⟨[], none, rfl, by simp, by simp [turnsPositive]⟩
  | cons turn rest ih =>
      obtain ⟨pieces, dropped, shape, finished, positive⟩ := encodeTurn_shape enc turn frameId
      rw [turnsPositive, positive, encodeLoop]
      by_cases goesOn : (encodeTurn enc turn frameId).2 = .running
      · obtain ⟨later, laterDropped, laterShape, laterFinished, laterPositive⟩ :=
          ih (frameId + 1)
        -- a turn that goes on has dropped nothing
        obtain rfl : dropped = none := by
          by_contra some
          have leaves := finished some
          rw [goesOn] at leaves
          cases leaves
        rw [laterPositive]
        refine ⟨pieces ++ later, laterDropped, ?_, ?_, ?_⟩
        · simp only [if_pos goesOn]
          rw [shape, laterShape, ← emit_traceOf]
          simp [traceOf]
        · simp only [if_pos goesOn]
          exact laterFinished
        · simp only [List.mem_append, or_imp, forall_and]
          simp [goesOn, and_assoc]
      · refine ⟨pieces, dropped, ?_, ?_, by simp [goesOn]⟩
        · simp only [if_neg goesOn, shape]
        · simp only [if_neg goesOn]
          exact finished

def endOfStream (closed : Bool) : List EncEvent :=
  if closed then [.loopFinished, .vpuWrite []] else []

theorem encoderStart_shape (enc : Encode) (run : EncRun) :
    ∃ pieces dropped closed, encoderStart enc run = traceOf pieces dropped ++ endOfStream closed ∧
      (dropped ≠ none → closed = true) ∧
      (AllPositive enc run ↔
        (∀ piece ∈ pieces, piece ≠ []) ∧ ∀ frame ∈ dropped, frame = []) := by
  obtain ⟨pieces, ret, headers, positive, passes⟩ :=
    encoderFillHeaders_shape enc run.headers (!enc.headerPerFrame)
  simp only [Bool.not_eq_true'] at positive passes
  unfold encoderStart AllPositive
  rw [headers, positive, passes]
  by_cases failed : ret ≠ 0
  · exact ⟨pieces, none, false, by simp [failed, traceOf, endOfStream], by simp, by simp [failed]⟩
  obtain rfl : ret = 0 := by omega
  by_cases setup : setupFails enc run = true
  · exact ⟨pieces, none, false, by simp [setup, traceOf, endOfStream], by simp, by simp [setup]⟩
  obtain ⟨later, dropped, shape, finished, laterPositive⟩ := encodeLoop_shape enc run.turns 0
  rw [laterPositive]
  refine ⟨pieces ++ later, dropped, decide ((encodeLoop enc run.turns 0).2 = .finished), ?_, ?_, ?_⟩
  · simp only [setup, shape, ← emit_traceOf, endOfStream, decide_eq_true_eq]
    by_cases leaves : (encodeLoop enc run.turns 0).2 = .finished
    · simp [leaves]
    · simp [leaves]
  · simpa using finished
  · simp only [List.mem_append, or_imp, forall_and]
    simp [setup, and_assoc]

/-! ## The trace on the network -/

def closingWrites (closed : Bool) : List (List Byte) := if closed then [[]] else []

theorem writes_append (first second : List EncEvent) :
    writes (first ++ second) = writes first ++ writes second := by
  simp [writes]

theorem writes_trace (pieces : List (List Byte)) (dropped : Option (List Byte)) (closed : Bool) :
    writes (traceOf pieces dropped ++ endOfStream closed) = pieces ++ closingWrites closed := by
  have ends : writes (endOfStream closed) = closingWrites closed := by
    cases closed <;> rfl
  have unwritten : writes (dropped.toList.map EncEvent.produced) = [] := by
    cases dropped <;> simp [writes, EncEvent.written]
  have written : writes (emit pieces) = pieces := by
    induction pieces with
    | nil => rfl
    | cons piece rest ih =>
        rw [writes, emit] at ih
        simp [writes, emit, List.filterMap_cons, EncEvent.written, ih]
  rw [writes_append, ends, traceOf, writes_append, written, unwritten, List.append_nil]

theorem produced_trace (pieces : List (List Byte)) (dropped : Option (List Byte))
    (closed : Bool) :
    produced (traceOf pieces dropped ++ endOfStream closed) =
      pieces.flatten ++ dropped.getD [] := by
  have ends : produced (endOfStream closed) = [] := by
    cases closed <;> simp [endOfStream, produced, EncEvent.reported]
  have unwritten : produced (dropped.toList.map EncEvent.produced) = dropped.getD [] := by
    cases dropped <;> simp [produced, EncEvent.reported]
  have written : produced (emit pieces) = pieces.flatten := by
    induction pieces with
    | nil => rfl
    | cons piece rest ih =>
        rw [produced, emit] at ih
        simp [produced, emit, EncEvent.reported, ih]
  simp only [produced, List.flatMap_append, traceOf] at *
  rw [written, unwritten, ends, List.append_nil]

theorem sendAll_some (stale : Nat → Int) (state : SendState) (bufs : List (List Byte))
    (fits : ∀ buf ∈ bufs, buf.length + hdrLen ≤ defaultPktSize) :
    ∃ datagrams, sendAll stale state bufs = some datagrams := by
  induction bufs generalizing state with
  | nil => exact ⟨[], rfl⟩
  | cons buf rest ih =>
      have small : ¬ buf.length + hdrLen > defaultPktSize := by
        have := fits buf (by simp)
        omega
      have sends : ∃ datagram next, udpSend state (stale rest.length) buf =
          some (datagram, next) := by
        unfold udpSend
        rw [if_neg small]
        split <;> exact ⟨_, _, rfl⟩
      obtain ⟨datagram, next, sends⟩ := sends
      obtain ⟨datagrams, later⟩ := ih next fun one member => fits one (by simp [member])
      exact ⟨datagram :: datagrams, by simp [sendAll, sends, later]⟩

def sentOf (iframe : Int) (pieces : List (List Byte)) : List Sent :=
  pieces.map fun piece => ⟨iframe, piece⟩

theorem payloads_sentOf (iframe : Int) (pieces : List (List Byte)) :
    payloads (sentOf iframe pieces) = pieces.flatten := by
  induction pieces with
  | nil => rfl
  | cons piece rest ih =>
      rw [payloads, sentOf] at ih
      simp [payloads, sentOf, ih]

/-- Writes with a length are numbered one after the other. -/
theorem sendAll_wire (stale : Nat → Int) (iframe seqNo : Int) (pieces : List (List Byte))
    (closed : Bool) (positive : ∀ piece ∈ pieces, piece ≠ [])
    (fits : ∀ piece ∈ pieces, piece.length + hdrLen ≤ defaultPktSize) :
    sendAll stale ⟨seqNo, iframe⟩ (pieces ++ closingWrites closed) =
      some (wire seqNo (sentOf iframe pieces) ++
        if closed then [netHdrBytes ⟨-1, stale 0, 0⟩] else []) := by
  induction pieces generalizing seqNo with
  | nil =>
      cases closed with
      | false => rfl
      | true => simp [sendAll, closingWrites, udpSend, hdrLen, defaultPktSize, sentOf, wire]
  | cons piece rest ih =>
      have small : ¬ piece.length + hdrLen > defaultPktSize := by
        have := fits piece (by simp)
        omega
      have long : ¬ piece.length = 0 := by
        have := List.length_pos_iff.mpr (positive piece (by simp))
        omega
      have later := ih (seqNo + 1) (fun one member => positive one (by simp [member]))
        (fun one member => fits one (by simp [member]))
      simp [sendAll, udpSend, small, long, later, sentOf, wire, wireDatagram, wireHdr]

/-! ## The stream at the receiver -/

theorem sentOf_ok (iframe : Int) (pieces : List (List Byte)) (inInt : InInt iframe)
    (positive : ∀ piece ∈ pieces, piece ≠ [])
    (fits : ∀ piece ∈ pieces, piece.length + hdrLen ≤ defaultPktSize) :
    ∀ one ∈ sentOf iframe pieces, one.Ok := by
  intro one member
  obtain ⟨piece, isPiece, rfl⟩ := List.mem_map.mp member
  exact ⟨positive piece isPiece, fits piece isPiece, inInt⟩

theorem loopFinished_notMem_emit (pieces : List (List Byte)) :
    EncEvent.loopFinished ∉ emit pieces := by
  simp [emit]

/-- An empty piece ends the stream before the loop does. -/
theorem CompleteStream.pieces_positive {pieces : List (List Byte)}
    {dropped : Option (List Byte)} {closed : Bool} {datagrams : List (List Byte)}
    (complete : CompleteStream (traceOf pieces dropped ++ endOfStream closed) datagrams) :
    ∀ piece ∈ pieces, piece ≠ [] := by
  rintro piece member rfl
  obtain ⟨before, after, rfl⟩ := List.append_of_mem member
  have early := complete.closing (emit before ++ [.produced []])
    (emit after ++ dropped.toList.map EncEvent.produced ++ endOfStream closed)
    (by simp [traceOf, emit])
  simp [loopFinished_notMem_emit] at early

/-- When every piece has a length, only the end of the stream has none. -/
theorem endOfStream_last (pieces : List (List Byte)) (dropped : Option (List Byte))
    (closed : Bool) (positive : ∀ piece ∈ pieces, piece ≠ []) (before after : List EncEvent)
    (split : traceOf pieces dropped ++ endOfStream closed = before ++ .vpuWrite [] :: after) :
    EncEvent.loopFinished ∈ before := by
  have inside : EncEvent.vpuWrite [] ∉ traceOf pieces dropped := by
    simp only [traceOf, emit, List.mem_append, List.mem_flatMap, List.mem_cons, List.mem_map,
      List.not_mem_nil, or_false, reduceCtorEq, false_or, EncEvent.vpuWrite.injEq, and_false,
      exists_false]
    rintro ⟨piece, member, rfl⟩
    exact positive [] member rfl
  rcases List.append_eq_append_iff.mp split with ⟨more, rfl, rest⟩ | ⟨more, same, rest⟩
  · cases closed with
    | false => simp [endOfStream] at rest
    | true =>
        cases more with
        | nil => simp [endOfStream] at rest
        | cons event more =>
            rw [endOfStream, if_pos rfl, List.cons_append] at rest
            obtain ⟨rfl, _⟩ := List.cons.inj rest
            simp
  · cases more with
    | nil =>
        cases closed <;> simp [endOfStream] at rest
    | cons event more =>
        obtain ⟨rfl, _⟩ := List.cons.inj rest
        exact absurd (by simp [same]) inside

theorem arrivals_datagrams (datagrams : List (List Byte)) :
    arrivals (datagrams.map NetEvent.datagram) = datagrams := by
  induction datagrams with
  | nil => rfl
  | cons datagram rest ih => simp [arrivals, ih]

theorem timeouts_datagrams (datagrams : List (List Byte)) :
    timeouts (datagrams.map NetEvent.datagram) = 0 := by
  induction datagrams with
  | nil => rfl
  | cons datagram rest ih => simpa [timeouts] using ih

theorem quiet_datagrams (datagrams : List (List Byte)) :
    Quiet (datagrams.map NetEvent.datagram) := by
  intro event member
  obtain ⟨datagram, _, rfl⟩ := List.mem_map.mp member
  exact .inr ⟨datagram, rfl⟩

section Stream
variable {pieces : List (List Byte)} {dropped : Option (List Byte)} {closed : Bool}
  {stale : Nat → Int} {iframe : Int}
  (staleInt : ∀ k, InInt (stale k)) (iframeInt : InInt iframe)
  (positive : ∀ piece ∈ pieces, piece ≠ [])
  (fits : ∀ piece ∈ pieces, piece.length + hdrLen ≤ defaultPktSize)
  (count : pieces.length ≤ 2 ^ 31)
include staleInt iframeInt positive fits count

theorem reads_to_end (datagrams : List (List Byte))
    (datagramsEq : datagrams = wire 0 (sentOf iframe pieces) ++ [netHdrBytes ⟨-1, stale 0, 0⟩]) :
    ∃ calls results final rest before result after, (∀ call ∈ calls, 0 < call.n) ∧
      recvCalls calls (datagrams.map NetEvent.datagram)
        (RecvState.initial (List.replicate defaultPktSize 0) 0) = some (results, final, rest) ∧
      results = before ++ result :: after ∧ result.ret = 0 ∧
      delivered before = pieces.flatten := by
  have holds := initial_holding (sentOf iframe pieces) ⟨-1, stale 0, 0⟩
    (datagrams.map NetEvent.datagram) (List.replicate defaultPktSize 0) 0
    (sentOf_ok iframe pieces iframeInt positive fits) (by simpa [sentOf] using count)
    ⟨endHdr_fits _ (staleInt 0), rfl⟩ (quiet_datagrams datagrams)
    (by rw [arrivals_datagrams, datagramsEq]) List.length_replicate
  let calls : List Call := List.replicate (pieces.flatten.length + 1) ⟨1, true⟩
  have positiveCalls : ∀ call ∈ calls, 0 < call.n := by
    intro call member
    rw [(List.mem_replicate.mp member).2]
    decide
  obtain ⟨results, final, rest, left, run, sizes, stream, measure⟩ :=
    recvCalls_refines calls _ _ _ positiveCalls holds
  have faithful := stream.faithful sizes measure
  obtain ⟨_, result, member, zero⟩ := faithful.ends (by
    rw [timeouts_datagrams, payloads_sentOf]
    simp [calls])
  obtain ⟨before, after, rfl⟩ := List.append_of_mem member
  refine ⟨calls, _, final, rest, before, result, after, positiveCalls, run, rfl, zero, ?_⟩
  rw [(faithful.ended before result after rfl zero).1, payloads_sentOf]

/-- What a receiver has been handed when it sees the end of the stream. -/
theorem delivered_at_end (datagrams : List (List Byte))
    (datagramsEq : datagrams = wire 0 (sentOf iframe pieces) ++
      if closed then [netHdrBytes ⟨-1, stale 0, 0⟩] else [])
    (nbuf : List Byte) (noffset : Int) (events : List NetEvent) (calls : List Call)
    (results : List CallResult) (final : RecvState) (rest : List NetEvent)
    (size : nbuf.length = defaultPktSize) (quiet : Quiet events)
    (arrive : arrivals events = datagrams) (positiveCalls : ∀ call ∈ calls, 0 < call.n)
    (run : recvCalls calls events (RecvState.initial nbuf noffset) = some (results, final, rest))
    (before : List CallResult) (result : CallResult) (after : List CallResult)
    (split : results = before ++ result :: after) (zero : result.ret = 0) :
    delivered before = pieces.flatten := by
  -- an end that has not come may as well come after everything else
  let tail : List NetEvent :=
    if closed then [] else [.datagram (netHdrBytes ⟨-1, stale 0, 0⟩)]
  have quietAll : Quiet (events ++ tail) := by
    intro event member
    rcases List.mem_append.mp member with here | there
    · exact quiet event here
    · cases closed with
      | true => simp [tail] at there
      | false => exact .inr ⟨_, by simpa [tail] using there⟩
  have arriveAll : arrivals (events ++ tail) =
      wire 0 (sentOf iframe pieces) ++ [netHdrBytes ⟨-1, stale 0, 0⟩] := by
    rw [arrivals_append, arrive, datagramsEq]
    cases closed <;> simp [tail, arrivals]
  have holds := initial_holding (sentOf iframe pieces) ⟨-1, stale 0, 0⟩ (events ++ tail) nbuf
    noffset (sentOf_ok iframe pieces iframeInt positive fits) (by simpa [sentOf] using count)
    ⟨endHdr_fits _ (staleInt 0), rfl⟩ quietAll arriveAll size
  obtain ⟨results', final', rest', left, run', _, stream, _⟩ :=
    recvCalls_refines calls _ _ _ positiveCalls holds
  rw [recvCalls_append calls events tail _ run] at run'
  obtain ⟨rfl, _⟩ := Prod.mk.inj (Option.some.inj run')
  rw [split] at stream
  rw [(stream.zero_delivered zero).1, payloads_sentOf]

end Stream

/-- For a trace of the encoder's shape the stream is complete exactly when no
written piece is empty and no piece is lost to `quitflag`. -/
theorem completeStream_iff (pieces : List (List Byte)) (dropped : Option (List Byte))
    (closed : Bool) (stale : Nat → Int) (iframe : Int) (staleInt : ∀ k, InInt (stale k))
    (iframeInt : InInt iframe)
    (fits : ∀ piece ∈ pieces, piece.length + hdrLen ≤ defaultPktSize)
    (count : pieces.length ≤ 2 ^ 31) (leaves : dropped ≠ none → closed = true)
    (datagrams : List (List Byte))
    (sends : sendAll stale ⟨0, iframe⟩ (pieces ++ closingWrites closed) = some datagrams) :
    CompleteStream (traceOf pieces dropped ++ endOfStream closed) datagrams ↔
      (∀ piece ∈ pieces, piece ≠ []) ∧ ∀ frame ∈ dropped, frame = [] := by
  constructor
  · intro complete
    have positive := complete.pieces_positive
    refine ⟨positive, ?_⟩
    rintro frame ⟨rfl⟩
    obtain rfl := leaves (by simp)
    rw [sendAll_wire stale iframe 0 pieces true positive fits, Option.some.injEq] at sends
    obtain ⟨calls, results, final, rest, before, result, after, positiveCalls, run, split, zero,
      read⟩ := reads_to_end staleInt iframeInt positive fits count datagrams sends.symm
    have whole := complete.stream _ _ _ _ _ _ _ List.length_replicate (quiet_datagrams datagrams)
      (arrivals_datagrams datagrams) positiveCalls run before result after split zero
    rw [read, produced_trace] at whole
    simpa using whole
  · rintro ⟨positive, none⟩
    rw [sendAll_wire stale iframe 0 pieces closed positive fits, Option.some.injEq] at sends
    refine ⟨?_, ?_⟩
    · intro nbuf noffset events calls results final rest size quiet arrive positiveCalls run
        before result after split zero
      rw [delivered_at_end staleInt iframeInt positive fits count datagrams sends.symm nbuf noffset
        events calls results final rest size quiet arrive positiveCalls run before result after
        split zero, produced_trace]
      cases dropped with
      | none => simp
      | some frame => simp [none frame rfl]
    · intro before after split
      exact endOfStream_last pieces dropped closed positive before after split

/-! ## Whole runs -/

/-- In a run whose writes fit datagrams and can be numbered by `seq_no`, the
receiver gets the complete stream exactly when every header and frame written
has a positive size and `quitflag` drops no frame. -/
theorem encoderStart_complete_iff (enc : Encode) (run : EncRun) (stale : Nat → Int)
    (iframe : Int) (staleInt : ∀ k, InInt (stale k)) (iframeInt : InInt iframe)
    (fits : ∀ buf ∈ writes (encoderStart enc run), buf.length + hdrLen ≤ defaultPktSize)
    (count : (writes (encoderStart enc run)).length ≤ 2 ^ 31) :
    ∃ datagrams, sendAll stale ⟨0, iframe⟩ (writes (encoderStart enc run)) = some datagrams ∧
      (CompleteStream (encoderStart enc run) datagrams ↔ AllPositive enc run) := by
  obtain ⟨pieces, dropped, closed, shape, leaves, positive⟩ := encoderStart_shape enc run
  obtain ⟨datagrams, sends⟩ := sendAll_some stale ⟨0, iframe⟩ _ fits
  refine ⟨datagrams, sends, ?_⟩
  rw [shape, writes_trace] at sends fits count
  rw [positive, shape]
  rw [List.length_append] at count
  exact completeStream_iff pieces dropped closed stale iframe staleInt iframeInt
    (fun piece member => fits piece (by simp [member])) (by omega) leaves datagrams sends

/-- An H.263 encode of three pictures, the second of which the encoder skips. -/
def skipEncode : Encode where
  format := .h263
  mx6x := false
  mvcExtension := false
  mvcParasetRefreshEn := false
  avcVuiPresentFlag := false
  encPicwidth := 176
  encPicheight := 144
  srcPicwidth := 176
  srcPicheight := 144
  srcV4l2 := false
  count := 3

def skipHeaders : HeaderOutputs where
  put := fun _ => []
  videoHeader := none
  jpegHeader := none

def skipTurn (frame : List Byte) : Turn where
  source := true
  headers := skipHeaders
  startOneFrame := true
  hangs := false
  getOutputInfo := true
  frame := frame
  quitflag := false

def skipRun : EncRun where
  headers := skipHeaders
  reports := []
  startCapturing := true
  turns := [skipTurn [1, 2], skipTurn [], skipTurn [3]]

theorem skipRun_trace : encoderStart skipEncode skipRun =
    [.produced [1, 2], .vpuWrite [1, 2], .produced [], .vpuWrite [], .produced [3],
      .vpuWrite [3], .loopFinished, .vpuWrite []] := by
  decide

theorem encoderStart_complete_iff_skip :
    ∃ datagrams,
      sendAll (fun _ => 0) ⟨0, 0⟩ (writes (encoderStart skipEncode skipRun)) = some datagrams ∧
      (CompleteStream (encoderStart skipEncode skipRun) datagrams ↔
        AllPositive skipEncode skipRun) :=
  encoderStart_complete_iff skipEncode skipRun (fun _ => 0) 0 (fun _ => by decide) (by decide)
    (by rw [skipRun_trace]; decide) (by rw [skipRun_trace]; decide)

/-- The skipped picture is written with length zero, which ends the stream in the
middle of the run. -/
theorem encoderStart_ends_stream_early :
    ∃ datagrams,
      sendAll (fun _ => 0) ⟨0, 0⟩ (writes (encoderStart skipEncode skipRun)) = some datagrams ∧
      ¬ CompleteStream (encoderStart skipEncode skipRun) datagrams := by
  obtain ⟨datagrams, sends⟩ := sendAll_some (fun _ => 0) ⟨0, 0⟩
    (writes (encoderStart skipEncode skipRun)) (by rw [skipRun_trace]; decide)
  refine ⟨datagrams, sends, ?_⟩
  intro complete
  have early := complete.closing [.produced [1, 2], .vpuWrite [1, 2], .produced []]
    [.produced [3], .vpuWrite [3], .loopFinished, .vpuWrite []] skipRun_trace
  simp at early

end ImxTest.Vpu.EncoderNet
