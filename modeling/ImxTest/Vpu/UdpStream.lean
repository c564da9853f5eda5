import ImxTest.Vpu.Udp

/-!
# The receiver as a byte stream

Datagrams that arrive in order and without loss, closed by one of length zero,
carry one byte stream.  `StreamCall` says what a read of that stream may return;
`udp_recv` refines it for every alignment of read sizes and datagram sizes.
-/

set_option autoImplicit false

namespace ImxTest.Vpu.UdpStream

open ImxTest.Vpu.Udp

/-! ## A stream of bytes -/

/-- One read of at most `n` bytes of the stream `left`: its return value, the
bytes delivered and the stream after it. -/
inductive StreamCall (n : Int) : List Byte → Int → List Byte → List Byte → Prop where
  | data (bytes left : List Byte) (nonempty : bytes ≠ []) (fits : (bytes.length : Int) ≤ n) :
      StreamCall n (bytes ++ left) bytes.length bytes left
  | again (left : List Byte) : StreamCall n left (-eagain) [] left
  | ended : StreamCall n [] 0 [] []

theorem StreamCall.splits {n ret : Int} {left bytes after : List Byte}
    (call : StreamCall n left ret bytes after) : left = bytes ++ after := by
  cases call <;> simp

/-- Everything a read can return. -/
theorem StreamCall.outcome {n ret : Int} {left bytes after : List Byte}
    (call : StreamCall n left ret bytes after) :
    (ret = bytes.length ∧ 0 < bytes.length ∧ ret ≤ n) ∨ (ret = -eagain ∧ bytes = []) ∨
      (ret = 0 ∧ bytes = [] ∧ left = []) := by
  cases call with
  | data _ _ nonempty fits => exact .inl ⟨rfl, List.length_pos_iff.mpr nonempty, fits⟩
  | again _ => exact .inr (.inl ⟨rfl, rfl⟩)
  | ended => exact .inr (.inr ⟨rfl, rfl, rfl⟩)

/-- The receiver's state and what is still on the wire hold exactly the stream
`left`. -/
inductive Holding : RecvState → List NetEvent → List Byte → Prop where
  | active (state : RecvState) (events : List NetEvent) (pending : List Byte)
      (sent : List Sent) (last : NetHdr)
      (size : state.nbuf.length = defaultPktSize)
      (nlen : state.nlen = pending.length)
      (copied : pending ≠ [] →
        copyFrom state.nbuf state.noffset pending.length = some pending)
      (quiet : Quiet events)
      (ok : ∀ one ∈ sent, one.Ok)
      (numbers : 0 ≤ state.seqNo ∧ state.seqNo + sent.length ≤ 2 ^ 31)
      (closes : last.Fits ∧ last.len = 0)
      (arrive : arrivals events = wire state.seqNo sent ++ [netHdrBytes last]) :
      Holding state events (pending ++ sent.flatMap Sent.payload)
  | ended (state : RecvState) (events : List NetEvent) (nlen : state.nlen = -1) :
      Holding state events []

def obsBytes (obs : List RecvObs) : List Byte := obs.flatMap RecvObs.bytes

/-! ## Copies from `nbuf` -/

section Copies
variable {nbuf bytes : List Byte} {offset count : Int}
  (copy : copyFrom nbuf offset count = some bytes)
include copy

theorem copyFrom_inside :
    0 ≤ offset ∧ 0 ≤ count ∧ offset + count ≤ nbuf.length ∧
      bytes = (nbuf.drop offset.toNat).take count.toNat := by
  unfold copyFrom at copy
  split at copy
  · rename_i inside
    exact ⟨inside.1, inside.2.1, inside.2.2, (Option.some.inj copy).symm⟩
  · cases copy

theorem copyFrom_part (n : Int) (low : 0 ≤ n) (high : n ≤ count) :
    copyFrom nbuf offset n = some (bytes.take n.toNat) := by
  obtain ⟨offsetLow, _, inside, rfl⟩ := copyFrom_inside copy
  rw [copyFrom, if_pos ⟨offsetLow, low, by omega⟩, List.take_take,
    Nat.min_eq_left (by omega)]

theorem copyFrom_later (n : Int) (low : 0 ≤ n) (high : n ≤ count) :
    copyFrom nbuf (offset + n) (count - n) = some (bytes.drop n.toNat) := by
  obtain ⟨offsetLow, _, inside, rfl⟩ := copyFrom_inside copy
  have start : (offset + n).toNat = offset.toNat + n.toNat := by omega
  have length : (count - n).toNat = count.toNat - n.toNat := by omega
  rw [copyFrom, if_pos ⟨by omega, by omega, by omega⟩, start, length, List.drop_take,
    List.drop_drop]

end Copies

/-! ## The receive loop -/

/-- What the loop has to give back: a part of the stream, or nothing and
`-EAGAIN` if no byte was copied before it either. -/
def LoopEnds (n ntotal : Int) (events : List NetEvent) (left : List Byte) (result : Recv) :
    Prop :=
  ∃ ret obs state rest after, result = .returned ret obs state rest ∧
    left = obsBytes obs ++ after ∧ Holding state rest after ∧
    timeouts rest ≤ timeouts events ∧
    ((ret = -eagain ∧ ntotal = 0 ∧ obsBytes obs = [] ∧ timeouts rest < timeouts events) ∨
      (ret = ntotal + (obsBytes obs).length ∧ ret ≤ n ∧
        (ret = 0 → after = [] ∧ state.nlen = -1)))

theorem LoopEnds.prepend {n ntotal : Int} {events later : List NetEvent}
    {left : List Byte} {result : Recv} (one : RecvObs)
    (fewer : timeouts later ≤ timeouts events) (some : 0 < one.bytes.length)
    (nonneg : 0 ≤ ntotal)
    (ends : LoopEnds n (ntotal + one.bytes.length) later left result) :
    LoopEnds n ntotal events (one.bytes ++ left) (result.prepend [one]) := by
  obtain ⟨ret, obs, state, rest, after, rfl, splits, holds, fewer', outcome⟩ := ends
  refine ⟨ret, one :: obs, state, rest, after, rfl, ?_, holds, by omega, ?_⟩
  · simp [splits, obsBytes]
  · rcases outcome with ⟨_, zero, _⟩ | ⟨count, fits, ended⟩
    · omega
    · refine .inr ⟨?_, fits, ended⟩
      simp only [obsBytes, List.flatMap_cons, List.length_append] at count ⊢
      omega

section InSequence
variable (complete : Bool) (n : Int) (rest : List NetEvent) (state : RecvState)
  (nleft ntotal : Int) (head : Sent) (ok : head.Ok) (low : 0 ≤ state.seqNo)
  (high : state.seqNo < 2 ^ 31) (wanted : 0 < nleft)
include ok low high wanted

theorem recvLoop_wire_part (longer : (head.payload.length : Int) > nleft) :
    recvLoop complete n (.datagram (wireDatagram state.seqNo head) :: rest) state nleft ntotal =
      (recvLoop complete n rest
        { state with
          nbuf := receivedBuf state (wireDatagram state.seqNo head)
          seqNo := state.seqNo + 1
          nlen := head.payload.length - nleft
          noffset := nleft + hdrLen } 0 (ntotal + nleft)).prepend
        [.first (wireHdr state.seqNo head) (head.payload.take nleft.toNat)] := by
  have hdrAt := netHdrAt_wireDatagram state.seqNo head ok low high
  have turn := recvLoop_keeps_part complete n rest state nleft ntotal _
    (wireDatagram_wellFormed state.seqNo head ok low high) wanted
    (by rw [hdrAt]; exact wireHdr_len_ne state.seqNo head ok) (by simp [hdrAt])
    (by rwa [payloadOf_wireDatagram])
  rwa [hdrAt, payloadOf_wireDatagram, seqCheck_wireHdr] at turn

theorem recvLoop_wire_whole (fits : (head.payload.length : Int) ≤ nleft) :
    recvLoop complete n (.datagram (wireDatagram state.seqNo head) :: rest) state nleft ntotal =
      (recvLoop complete n rest
        { state with
          nbuf := receivedBuf state (wireDatagram state.seqNo head)
          seqNo := state.seqNo + 1 }
        (nleft - head.payload.length) (ntotal + head.payload.length)).prepend
        [.first (wireHdr state.seqNo head) head.payload] := by
  have hdrAt := netHdrAt_wireDatagram state.seqNo head ok low high
  have turn := recvLoop_keeps_whole complete n rest state nleft ntotal _
    (wireDatagram_wellFormed state.seqNo head ok low high) wanted
    (by rw [hdrAt]; exact wireHdr_len_ne state.seqNo head ok) (by simp [hdrAt])
    (by rwa [payloadOf_wireDatagram])
  rwa [hdrAt, payloadOf_wireDatagram, seqCheck_wireHdr] at turn

end InSequence

/-- The rest of a stream on its way to the loop, with nothing pending. -/
structure Incoming (state : RecvState) (events : List NetEvent) (sent : List Sent)
    (last : NetHdr) : Prop where
  size : state.nbuf.length = defaultPktSize
  nlen : state.nlen = 0
  quiet : Quiet events
  ok : ∀ one ∈ sent, one.Ok
  numbers : 0 ≤ state.seqNo ∧ state.seqNo + sent.length ≤ 2 ^ 31
  closes : last.Fits ∧ last.len = 0
  arrive : arrivals events = wire state.seqNo sent ++ [netHdrBytes last]

section Incoming
variable {state : RecvState} {rest : List NetEvent} {sent more : List Sent} {head : Sent}
  {last : NetHdr} {bytes : List Byte}

theorem Incoming.holding {events : List NetEvent} (incoming : Incoming state events sent last) :
    Holding state events (sent.flatMap Sent.payload) :=
  .active state events [] sent last incoming.size incoming.nlen (fun none => absurd rfl none)
    incoming.quiet incoming.ok incoming.numbers incoming.closes incoming.arrive

theorem Incoming.timeout (incoming : Incoming state (.timeout false :: rest) sent last) :
    Incoming state rest sent last where
  size := incoming.size
  nlen := incoming.nlen
  quiet := fun one member => incoming.quiet one (List.mem_cons_of_mem _ member)
  ok := incoming.ok
  numbers := incoming.numbers
  closes := incoming.closes
  arrive := incoming.arrive

/-- The next datagram is the head of the stream, and the loop waits for the rest. -/
theorem Incoming.datagram
    (incoming : Incoming state (.datagram bytes :: rest) (head :: more) last) :
    bytes = wireDatagram state.seqNo head ∧ head.Ok ∧ state.seqNo < 2 ^ 31 ∧
      Incoming { state with nbuf := receivedBuf state bytes, seqNo := state.seqNo + 1 } rest more
        last := by
  have arrive := incoming.arrive
  have numbers := incoming.numbers
  obtain ⟨rfl, arriveRest⟩ : bytes = wireDatagram state.seqNo head ∧
      arrivals rest = wire (state.seqNo + 1) more ++ [netHdrBytes last] := by
    simpa [arrivals, wire] using arrive
  rw [List.length_cons] at numbers
  have headOk : head.Ok := incoming.ok head (List.mem_cons_self ..)
  have wf := wireDatagram_wellFormed state.seqNo head headOk numbers.1 (by omega)
  refine ⟨rfl, headOk, by omega, receivedBuf_length state _ wf incoming.size, incoming.nlen, ?_, ?_,
    by simp only; omega, incoming.closes, arriveRest⟩
  · exact fun one member => incoming.quiet one (List.mem_cons_of_mem _ member)
  · exact fun one member => incoming.ok one (List.mem_cons_of_mem _ member)

theorem recvLoop_timeout {complete : Bool} {n nleft ntotal : Int} (wanted : 0 < nleft)
    (total : ntotal + nleft = n)
    (incoming : Incoming state (.timeout false :: rest) sent last)
    (later : LoopEnds n ntotal rest (sent.flatMap Sent.payload)
      (recvLoop complete n rest state nleft ntotal)) :
    LoopEnds n ntotal (.timeout false :: rest) (sent.flatMap Sent.payload)
      (recvLoop complete n (.timeout false :: rest) state nleft ntotal) := by
  have fewer : timeouts rest < timeouts (.timeout false :: rest) := by simp [timeouts]
  have holds := incoming.timeout.holding
  simp only [recvLoop, if_neg (show ¬ nleft ≤ 0 by omega)]
  by_cases waits : complete = true
  · rw [if_neg (by simp), if_pos waits]
    obtain ⟨ret, obs, after, rest', left', result, splits, keeps, fewer', outcome⟩ := later
    refine ⟨ret, obs, after, rest', left', result, splits, keeps, by omega, ?_⟩
    rcases outcome with ⟨again, zero, empty, _⟩ | data
    · exact .inl ⟨again, zero, empty, by omega⟩
    · exact .inr data
  rw [if_neg (by simp), if_neg waits]
  by_cases zero : ntotal = 0
  · rw [if_pos zero]
    exact ⟨_, [], state, rest, _, rfl, rfl, holds, by omega, .inl ⟨rfl, zero, rfl, fewer⟩⟩
  · rw [if_neg zero]
    refine ⟨_, [], state, rest, _, rfl, rfl, holds, by omega, .inr ?_⟩
    simp only [obsBytes, List.flatMap_nil, List.length_nil]
    omega

theorem recvLoop_part {complete : Bool} {n nleft ntotal : Int} (wanted : 0 < nleft)
    (nonneg : 0 ≤ ntotal) (total : ntotal + nleft = n)
    (incoming : Incoming state (.datagram bytes :: rest) (head :: more) last)
    (longer : (head.payload.length : Int) > nleft) :
    LoopEnds n ntotal (.datagram bytes :: rest) ((head :: more).flatMap Sent.payload)
      (recvLoop complete n (.datagram bytes :: rest) state nleft ntotal) := by
  have low := incoming.numbers.1
  obtain ⟨rfl, ok, high, next⟩ := incoming.datagram
  have wf := wireDatagram_wellFormed state.seqNo head ok low high
  rw [recvLoop_wire_part complete n rest state nleft ntotal head ok low high wanted longer,
    recvLoop_done _ _ _ _ _ _ (Int.le_refl 0)]
  refine ⟨n, _, _, rest, _, rfl, ?_, .active _ rest (head.payload.drop nleft.toNat) more last
    next.size ?_ (fun _ => ?_) next.quiet next.ok next.numbers next.closes next.arrive,
    by simp [timeouts], .inr ⟨?_, Int.le_refl n, fun zero => by omega⟩⟩
  · rw [List.flatMap_cons, ← List.append_assoc]
    simp [obsBytes, RecvObs.bytes]
  · simp only [List.length_drop]
    omega
  · have copied := copyFrom_receivedBuf state _ wf nleft.toNat
      (head.payload.length - nleft.toNat) (by rw [payloadOf_wireDatagram]; omega)
    rwa [payloadOf_wireDatagram, ← List.length_drop, List.take_length,
      show ((nleft.toNat : Nat) : Int) = nleft by omega] at copied
  · simp only [obsBytes, RecvObs.bytes, List.append_nil, List.flatMap_cons,
      List.flatMap_nil, List.length_take]
    omega

theorem recvLoop_last {complete : Bool} {n nleft ntotal : Int} (wanted : 0 < nleft)
    (total : ntotal + nleft = n)
    (incoming : Incoming state (.datagram bytes :: rest) [] last) :
    LoopEnds n ntotal (.datagram bytes :: rest) []
      (recvLoop complete n (.datagram bytes :: rest) state nleft ntotal) := by
  have arrive := incoming.arrive
  obtain ⟨fits, zero⟩ := incoming.closes
  obtain ⟨rfl, _⟩ : bytes = netHdrBytes last ∧ arrivals rest = [] := by
    simpa [arrivals, wire] using arrive
  rw [recvLoop_ends complete n rest state nleft ntotal _ (netHdrBytes_wellFormed last fits zero)
    wanted (by rw [netHdrAt_netHdrBytes_nil last fits]; exact zero)]
  refine ⟨_, [], _, rest, [], rfl, rfl, .ended _ _ rfl, by simp [timeouts],
    .inr ⟨?_, by omega, fun _ => ⟨rfl, rfl⟩⟩⟩
  simp only [obsBytes, List.flatMap_nil, List.length_nil]
  omega

end Incoming

theorem recvLoop_spec (complete : Bool) (n : Int) (events : List NetEvent) (state : RecvState)
    (nleft ntotal : Int) (sent : List Sent) (last : NetHdr) (positive : 0 < n)
    (nonneg : 0 ≤ nleft ∧ 0 ≤ ntotal) (total : ntotal + nleft = n)
    (incoming : Incoming state events sent last) :
    LoopEnds n ntotal events (sent.flatMap Sent.payload)
      (recvLoop complete n events state nleft ntotal) := by
  induction events generalizing state nleft ntotal sent with
  | nil => simpa [arrivals] using incoming.arrive
  | cons event rest ih =>
      by_cases done : nleft ≤ 0
      · rw [recvLoop_done _ _ _ _ _ _ done]
        refine ⟨n, [], state, _, _, rfl, rfl, incoming.holding, Nat.le_refl _, .inr ?_⟩
        simp only [obsBytes, List.flatMap_nil, List.length_nil]
        omega
      have wanted : 0 < nleft := by omega
      rcases incoming.quiet event (List.mem_cons_self ..) with rfl | ⟨bytes, rfl⟩
      · exact recvLoop_timeout wanted total incoming
          (ih state nleft ntotal sent nonneg total incoming.timeout)
      cases sent with
      | nil => exact recvLoop_last wanted total incoming
      | cons head more =>
          by_cases longer : (head.payload.length : Int) > nleft
          · exact recvLoop_part wanted nonneg.2 total incoming longer
          have low := incoming.numbers.1
          obtain ⟨rfl, ok, high, next⟩ := incoming.datagram
          have some : 0 < head.payload.length := List.length_pos_iff.mpr ok.nonempty
          rw [recvLoop_wire_whole complete n rest state nleft ntotal head ok low high wanted
            (by omega), List.flatMap_cons]
          exact LoopEnds.prepend (.first (wireHdr state.seqNo head) head.payload)
            (by simp [timeouts]) some nonneg.2
            (ih _ _ _ more (by simp only [RecvObs.bytes]; omega)
              (by simp only [RecvObs.bytes]; omega) next)

/-! ## One call -/

/-- What one call of `udp_recv` gives back: a read of the stream, and a state
that holds the rest of it. -/
structure CallSpec (n : Int) (events : List NetEvent) (left : List Byte) (ret : Int)
    (obs : List RecvObs) (state : RecvState) (rest : List NetEvent) (after : List Byte) :
    Prop where
  read : StreamCall n left ret (obsBytes obs) after
  holds : Holding state rest after
  fewer : timeouts rest ≤ timeouts events
  again : ret = -eagain → timeouts rest < timeouts events
  ended : ret = 0 → state.nlen = -1

theorem LoopEnds.callSpec {n : Int} {events : List NetEvent} {left : List Byte} {result : Recv}
    (ends : LoopEnds n 0 events left result) :
    ∃ ret obs state rest after, result = .returned ret obs state rest ∧
      CallSpec n events left ret obs state rest after := by
  obtain ⟨ret, obs, state, rest, after, result, splits, holds, fewer, outcome⟩ := ends
  refine ⟨ret, obs, state, rest, after, result, ?_⟩
  rcases outcome with ⟨rfl, _, empty, less⟩ | ⟨count, fits, ended⟩
  · refine ⟨?_, holds, fewer, fun _ => less, fun zero => by simp [eagain] at zero⟩
    rw [splits, empty, List.nil_append]
    exact .again after
  · rw [Int.zero_add] at count
    have notAgain : ret = -eagain → timeouts rest < timeouts events := by
      intro again
      rw [again] at count
      simp only [eagain] at count
      omega
    refine ⟨?_, holds, fewer, notAgain, fun zero => (ended zero).2⟩
    by_cases zero : ret = 0
    · have none : obsBytes obs = [] := List.length_eq_zero_iff.mp (by omega)
      obtain ⟨rfl, _⟩ := ended zero
      rw [splits, none, zero]
      exact .ended
    · rw [splits, count]
      refine .data (obsBytes obs) after ?_ (by omega)
      intro none
      simp only [none, List.length_nil] at count
      omega

theorem udpRecv_pending (complete : Bool) {n : Int} {events : List NetEvent} {state : RecvState}
    {pending : List Byte} {sent : List Sent} {last : NetHdr} (positive : 0 < n)
    (size : state.nbuf.length = defaultPktSize) (nlen : state.nlen = pending.length)
    (copied : copyFrom state.nbuf state.noffset state.nlen = some pending)
    (longer : state.nlen > n) (quiet : Quiet events) (ok : ∀ one ∈ sent, one.Ok)
    (numbers : 0 ≤ state.seqNo ∧ state.seqNo + sent.length ≤ 2 ^ 31)
    (closes : last.Fits ∧ last.len = 0)
    (arrive : arrivals events = wire state.seqNo sent ++ [netHdrBytes last]) :
    ∃ ret obs next rest after, udpRecv complete n events state = .returned ret obs next rest ∧
      CallSpec n events (pending ++ sent.flatMap Sent.payload) ret obs next rest after := by
  have part := copyFrom_part copied n (by omega) (by omega)
  have more := copyFrom_later copied n (by omega) (by omega)
  have partLength : (pending.take n.toNat).length = n.toNat := by
    rw [List.length_take]
    omega
  have laterLength : ((pending.drop n.toNat).length : Int) = state.nlen - n := by
    rw [List.length_drop]
    omega
  refine ⟨n, [.more (netHdrAt state.nbuf) (pending.take n.toNat)],
    { state with nlen := state.nlen - n, noffset := state.noffset + n }, events,
    pending.drop n.toNat ++ sent.flatMap Sent.payload, ?_, ?_⟩
  · simp only [udpRecv, if_pos (show state.nlen ≠ 0 by omega),
      if_neg (show ¬ state.nlen = -1 by omega), if_pos longer, part]
  refine ⟨?_, .active _ events (pending.drop n.toNat) sent last size laterLength.symm
    (fun _ => ?_) quiet ok numbers closes arrive, Nat.le_refl _, ?_, fun zero => by omega⟩
  · have read := StreamCall.data (n := n) (pending.take n.toNat)
      (pending.drop n.toNat ++ sent.flatMap Sent.payload)
      (by intro none; simp only [none, List.length_nil] at partLength; omega) (by omega)
    rw [← List.append_assoc, List.take_append_drop, partLength,
      Int.toNat_of_nonneg (by omega)] at read
    simpa [obsBytes, RecvObs.bytes] using read
  · rw [laterLength]
    exact more
  · simp only [eagain]
    omega

/-- `udp_recv` refines the byte stream: every call returns, and returns a part of
the stream, `-EAGAIN` or, when nothing is left, 0. -/
theorem udpRecv_refines (complete : Bool) (n : Int) (events : List NetEvent)
    (state : RecvState) (left : List Byte) (positive : 0 < n)
    (holds : Holding state events left) :
    ∃ ret obs next rest after, udpRecv complete n events state = .returned ret obs next rest ∧
      CallSpec n events left ret obs next rest after := by
  cases holds with
  | ended nlen =>
      refine ⟨0, [], state, events, [], by simp [udpRecv, nlen], ⟨.ended, .ended _ _ nlen,
        Nat.le_refl _, fun again => by simp [eagain] at again, fun _ => nlen⟩⟩
  | active pending sent last size nlen copied quiet ok numbers closes arrive =>
      cases pending with
      | nil =>
          have zero : state.nlen = 0 := by simpa using nlen
          simp only [udpRecv, zero, ne_eq, not_true, if_false]
          exact (recvLoop_spec complete n events state n 0 sent last positive (by omega)
            (by omega) ⟨size, zero, quiet, ok, numbers, closes, arrive⟩).callSpec
      | cons byte bytes =>
          have pendingCopy := copied (List.cons_ne_nil _ _)
          rw [← nlen] at pendingCopy
          have positiveLen : 0 < state.nlen := by
            rw [nlen, List.length_cons]
            omega
          by_cases longer : state.nlen > n
          · exact udpRecv_pending complete positive size nlen pendingCopy longer quiet ok numbers
              closes arrive
          -- the pending payload goes first, the loop reads on
          have whole : udpRecv complete n events state =
              (recvLoop complete n events { state with nlen := 0 } (n - state.nlen)
                state.nlen).prepend [.more (netHdrAt state.nbuf) (byte :: bytes)] := by
            simp only [udpRecv, if_pos (show state.nlen ≠ 0 by omega),
              if_neg (show ¬ state.nlen = -1 by omega), if_neg longer, pendingCopy]
          rw [whole]
          refine (LoopEnds.prepend (.more (netHdrAt state.nbuf) (byte :: bytes))
            (Nat.le_refl _) (by simp [RecvObs.bytes]) (Int.le_refl 0) ?_).callSpec
          have loop := recvLoop_spec complete n events { state with nlen := 0 }
            (n - state.nlen) state.nlen sent last positive (by omega) (by omega)
            ⟨size, rfl, quiet, ok, numbers, closes, arrive⟩
          rwa [Int.zero_add, RecvObs.bytes, ← nlen]

/-! ## Sequences of calls -/

/-- Reads of the stream `left` one after the other, ending with the stream
`after`; a read that returns 0 is followed only by such reads. -/
inductive StreamRun : List Byte → List CallResult → List Byte → Prop where
  | nil (left : List Byte) : StreamRun left [] left
  | cons {left middle after : List Byte} {result : CallResult} {results : List CallResult}
      (positive : 0 < result.n)
      (read : StreamCall result.n left result.ret result.bytes middle)
      (run : StreamRun middle results after)
      (stays : result.ret = 0 → ∀ later ∈ results, later.ret = 0) :
      StreamRun left (result :: results) after

theorem recvCalls_ended (calls : List Call) (events : List NetEvent) (state : RecvState)
    (nlen : state.nlen = -1) :
    recvCalls calls events state =
      some (calls.map fun call => ⟨call.n, 0, []⟩, state, events) := by
  induction calls with
  | nil => rfl
  | cons call calls ih => simp [recvCalls, udpRecv, nlen, ih]

/-- The measure that every call with a result other than 0 makes smaller: bytes
still to come and time-outs still to come. -/
theorem recvCalls_refines (calls : List Call) (events : List NetEvent) (state : RecvState)
    (left : List Byte) (positive : ∀ call ∈ calls, 0 < call.n)
    (holds : Holding state events left) :
    ∃ results final rest after, recvCalls calls events state = some (results, final, rest) ∧
      results.map CallResult.n = calls.map Call.n ∧ StreamRun left results after ∧
      ((∀ result ∈ results, result.ret ≠ 0) →
        results.length ≤ left.length + timeouts events) := by
  induction calls generalizing events state left with
  | nil => exact ⟨[], state, events, left, rfl, rfl, .nil left, fun _ => by simp⟩
  | cons call calls ih =>
      have positiveCall : 0 < call.n := positive call (by simp)
      obtain ⟨ret, obs, next, rest, middle, returned, spec⟩ :=
        udpRecv_refines call.complete call.n events state left positiveCall holds
      obtain ⟨results, final, rest', after, run, sizes, stream, measure⟩ :=
        ih rest next middle (fun one member => positive one (by simp [member])) spec.holds
      refine ⟨⟨call.n, ret, obs⟩ :: results, final, rest', after, ?_, ?_, ?_, ?_⟩
      · simp [recvCalls, returned, run]
      · simp [sizes]
      · refine .cons positiveCall spec.read stream ?_
        intro zero later member
        have done := recvCalls_ended calls rest next (spec.ended zero)
        rw [run] at done
        have same : results = calls.map fun call => ⟨call.n, 0, []⟩ := by
          simpa using congrArg (Option.map Prod.fst) done
        rw [same, List.mem_map] at member
        obtain ⟨_, _, rfl⟩ := member
        rfl
      · intro nonzero
        have shorter := measure fun one member => nonzero one (by simp [member])
        have fewer := spec.fewer
        have headNonzero : ret ≠ 0 := nonzero ⟨call.n, ret, obs⟩ (by simp)
        have splits := congrArg List.length spec.read.splits
        simp only [List.length_cons, List.length_append] at splits ⊢
        -- a byte or a time-out is gone
        rcases spec.read.outcome with ⟨_, some, _⟩ | ⟨again, _⟩ | ⟨zero, _⟩
        · omega
        · have less := spec.again again
          omega
        · exact absurd zero headNonzero

theorem StreamRun.results_ok {left after : List Byte} {results : List CallResult}
    (run : StreamRun left results after) (result : CallResult) (member : result ∈ results) :
    result.ret ≤ result.n ∧
      (result.ret = result.bytes.length ∨ (result.ret = -eagain ∧ result.bytes = [])) := by
  induction run with
  | nil left => simp at member
  | cons positive read run stays ih =>
      rcases List.mem_cons.mp member with rfl | later
      · rcases read.outcome with ⟨count, _, fits⟩ | ⟨again, empty⟩ | ⟨zero, empty, _⟩
        · exact ⟨fits, .inl count⟩
        · refine ⟨?_, .inr ⟨again, empty⟩⟩
          rw [again, eagain]
          omega
        · exact ⟨by omega, .inl (by simp [zero, empty])⟩
      · exact ih later

theorem delivered_cons (result : CallResult) (results : List CallResult) (n : Int)
    (left after : List Byte) (read : StreamCall n left result.ret result.bytes after) :
    delivered (result :: results) = result.bytes ++ delivered results := by
  by_cases positive : 0 < result.ret
  · simp [delivered, positive]
  · have empty : result.bytes = [] := by
      rcases read.outcome with ⟨count, some, _⟩ | ⟨_, empty⟩ | ⟨_, empty, _⟩
      · omega
      · exact empty
      · exact empty
    simp [delivered, positive, empty]

theorem StreamRun.delivers {left after : List Byte} {results : List CallResult}
    (run : StreamRun left results after) : left = delivered results ++ after := by
  induction run with
  | nil left => simp [delivered]
  | cons positive read run stays ih =>
      rw [delivered_cons _ _ _ _ _ read, List.append_assoc, ← ih]
      exact read.splits

theorem StreamRun.split {left after : List Byte} {before later : List CallResult}
    (run : StreamRun left (before ++ later) after) :
    ∃ middle, StreamRun left before middle ∧ StreamRun middle later after := by
  induction before generalizing left with
  | nil => exact ⟨left, .nil left, run⟩
  | cons result rest ih =>
      rw [List.cons_append] at run
      cases run with
      | cons positive read run stays =>
          obtain ⟨middle, first, second⟩ := ih run
          refine ⟨middle, .cons positive read first ?_, second⟩
          intro zero one member
          exact stays zero one (by simp [member])

theorem StreamRun.zero_delivered {left after : List Byte} {before later : List CallResult}
    {result : CallResult} (run : StreamRun left (before ++ result :: later) after)
    (zero : result.ret = 0) : delivered before = left ∧ ∀ one ∈ later, one.ret = 0 := by
  obtain ⟨middle, first, second⟩ := run.split
  cases second with
  | cons positive read rest stays =>
      refine ⟨?_, stays zero⟩
      rcases read.outcome with ⟨count, some, _⟩ | ⟨again, _⟩ | ⟨_, _, empty⟩
      · omega
      · rw [again, eagain] at zero
        omega
      · rw [first.delivers, empty, List.append_nil]

theorem delivered_append (first second : List CallResult) :
    delivered (first ++ second) = delivered first ++ delivered second := by
  simp [delivered]

/-- Nothing is left: calls return 0 or `-EAGAIN`. -/
theorem StreamRun.empty_rets {after : List Byte} {results : List CallResult}
    (run : StreamRun [] results after) (result : CallResult) (member : result ∈ results) :
    result.ret = 0 ∨ result.ret = -eagain := by
  generalize none : ([] : List Byte) = left at run
  induction run with
  | nil left => simp at member
  | cons positive read run stays ih =>
      subst none
      have splits := read.splits
      have parts := List.append_eq_nil_iff.mp splits.symm
      rcases List.mem_cons.mp member with rfl | later
      · rcases read.outcome with ⟨_, some, _⟩ | ⟨again, _⟩ | ⟨zero, _⟩
        · simp [parts.1] at some
        · exact .inr again
        · exact .inl zero
      · exact ih later parts.2.symm

def payloads (sent : List Sent) : List Byte := sent.flatMap Sent.payload

/-- What a caller sees of a lossless stream over any sequence of reads. -/
structure Faithful (stream : List Byte) (events : List NetEvent) (calls : List Call)
    (results : List CallResult) : Prop where
  /-- Every call returns, none returns more than it asked for, and `-EAGAIN` means
  that nothing was delivered. -/
  sizes : results.map CallResult.n = calls.map Call.n
  rets : ∀ result ∈ results, result.ret ≤ result.n ∧
    (result.ret = result.bytes.length ∨ (result.ret = -eagain ∧ result.bytes = []))
  /-- The bytes delivered so far are the first bytes of the stream. -/
  prefixed : ∀ before after, results = before ++ after → delivered before <+: stream
  /-- After the last byte calls return only 0 or, on a time-out, `-EAGAIN`. -/
  exhausted : ∀ before after, results = before ++ after → delivered before = stream →
    ∀ result ∈ after, result.ret = 0 ∨ result.ret = -eagain
  /-- 0 is returned only after the last byte, and is the only result from then on. -/
  ended : ∀ before result after, results = before ++ result :: after → result.ret = 0 →
    delivered before = stream ∧ ∀ later ∈ after, later.ret = 0
  /-- Every result other than 0 uses up a byte or a time-out, so enough reads see the
  whole stream and then 0. -/
  ends : stream.length + timeouts events < calls.length →
    delivered results = stream ∧ ∃ result ∈ results, result.ret = 0

theorem StreamRun.faithful {stream after : List Byte} {events : List NetEvent}
    {calls : List Call} {results : List CallResult} (run : StreamRun stream results after)
    (sizes : results.map CallResult.n = calls.map Call.n)
    (measure : (∀ result ∈ results, result.ret ≠ 0) →
      results.length ≤ stream.length + timeouts events) :
    Faithful stream events calls results where
  sizes := sizes
  rets := run.results_ok
  prefixed := by
    rintro before later rfl
    obtain ⟨middle, first, _⟩ := run.split
    exact ⟨middle, first.delivers.symm⟩
  exhausted := by
    rintro before later rfl whole
    obtain ⟨middle, first, second⟩ := run.split
    have splits := first.delivers
    rw [whole] at splits
    obtain rfl := List.self_eq_append_right.mp splits
    exact second.empty_rets
  ended := by
    rintro before result later rfl zero
    exact run.zero_delivered zero
  ends := by
    intro enough
    have zero : ∃ result ∈ results, result.ret = 0 := by
      by_contra never
      push Not at never
      have short := measure never
      have count := congrArg List.length sizes
      simp only [List.length_map] at count
      omega
    refine ⟨?_, zero⟩
    obtain ⟨result, member, ret⟩ := zero
    obtain ⟨before, later, rfl⟩ := List.append_of_mem member
    have whole := (run.zero_delivered ret).1
    have splits := run.delivers
    have lengths := congrArg List.length splits
    rw [delivered_append, whole, List.length_append, List.length_append] at lengths
    obtain rfl : after = [] := List.length_eq_zero_iff.mp (by omega)
    rw [List.append_nil] at splits
    exact splits.symm

theorem initial_holding (sent : List Sent) (last : NetHdr) (events : List NetEvent)
    (nbuf : List Byte) (noffset : Int) (ok : ∀ one ∈ sent, one.Ok)
    (count : sent.length ≤ 2 ^ 31) (closes : last.Fits ∧ last.len = 0) (quiet : Quiet events)
    (arrive : arrivals events = wire 0 sent ++ [netHdrBytes last])
    (size : nbuf.length = defaultPktSize) :
    Holding (RecvState.initial nbuf noffset) events (payloads sent) := by
  have holds := Holding.active (RecvState.initial nbuf noffset) events [] sent last size rfl
    (fun none => absurd rfl none) quiet ok (by simp only [RecvState.initial]; omega) closes arrive
  rwa [List.nil_append] at holds

/-- For every list of payloads sent as datagrams numbered from 0, delivered in
order and closed by a datagram of length zero, with time-outs anywhere, every
sequence of reads sees the concatenation of the payloads. -/
theorem udpRecv_faithful_stream (sent : List Sent) (last : NetHdr) (events : List NetEvent)
    (nbuf : List Byte) (noffset : Int) (calls : List Call)
    (ok : ∀ one ∈ sent, one.Ok) (count : sent.length ≤ 2 ^ 31)
    (closes : last.Fits ∧ last.len = 0) (quiet : Quiet events)
    (arrive : arrivals events = wire 0 sent ++ [netHdrBytes last])
    (size : nbuf.length = defaultPktSize) (positive : ∀ call ∈ calls, 0 < call.n) :
    ∃ results final rest,
      recvCalls calls events (RecvState.initial nbuf noffset) = some (results, final, rest) ∧
      Faithful (payloads sent) events calls results := by
  have holds := initial_holding sent last events nbuf noffset ok count closes quiet arrive size
  obtain ⟨results, final, rest, after, run, sizes, stream, measure⟩ :=
    recvCalls_refines calls events _ _ positive holds
  exact ⟨results, final, rest, run, stream.faithful sizes measure⟩

/-- Two payloads, a time-out between them, and reads that split the first one. -/
theorem udpRecv_faithful_stream_two :
    let sent : List Sent := [⟨0, [1, 2, 3]⟩, ⟨0, [4]⟩]
    let last : NetHdr := ⟨-1, 0, 0⟩
    let events : List NetEvent := [.datagram (wireDatagram 0 ⟨0, [1, 2, 3]⟩), .timeout false,
      .datagram (wireDatagram 1 ⟨0, [4]⟩), .datagram (netHdrBytes last)]
    let calls : List Call := [⟨2, false⟩, ⟨5, true⟩, ⟨1, false⟩]
    ∃ results final rest,
      recvCalls calls events (RecvState.initial (List.replicate defaultPktSize 0) 0) =
        some (results, final, rest) ∧
      Faithful (payloads sent) events calls results := by
  refine udpRecv_faithful_stream _ _ _ _ _ _ ?_ (by decide) ?_ ?_ rfl
    List.length_replicate (by decide)
  · intro one member
    rcases List.mem_cons.mp member with rfl | member
    · exact ⟨by decide, by decide, by decide⟩
    · rcases List.mem_singleton.mp member with rfl
      exact ⟨by decide, by decide, by decide⟩
  · exact ⟨⟨by decide, by decide, by decide⟩, rfl⟩
  · intro event member
    simp only [List.mem_cons, List.not_mem_nil, or_false] at member
    rcases member with rfl | rfl | rfl | rfl
    · exact .inr ⟨_, rfl⟩
    · exact .inl rfl
    · exact .inr ⟨_, rfl⟩
    · exact .inr ⟨_, rfl⟩

end ImxTest.Vpu.UdpStream
