import ImxTest.Vpu.Udp

/-!
# The copies of `udp_recv`

The length of a copy is the size of the datagram less the header, and nothing looks at
whether the datagram has a header.  A datagram that is shorter leaves the end of an older
header in `nbuf`; when this passes the checks the length is negative.  Without such
datagrams every copy fits the caller's buffer, and what is pending has been received.
-/

set_option autoImplicit false

namespace ImxTest.Vpu.UdpBounds

open ImxTest.Vpu.Udp

/-! ## The copies -/

/-- A `memcpy` into the caller's buffer: its length and the room from its target on. -/
structure Copy where
  length : Int
  room : Int
  deriving DecidableEq, Repr

def Copy.InRoom (copy : Copy) : Prop := 0 ≤ copy.length ∧ copy.length ≤ copy.room

instance (copy : Copy) : Decidable copy.InRoom := inferInstanceAs (Decidable (_ ∧ _))

/-- The copies of the receive loop, as `recvLoop` makes them, whatever their length. -/
def recvLoopCopies (complete : Bool) : List NetEvent → RecvState → (nleft : Int) → List Copy
  | [], _, _ => []
  | event :: rest, state, nleft =>
      if nleft ≤ 0 then []
      else
        match event with
        | .selectFails => []
        | .recvFails => []
        | .timeout quitflag =>
            if quitflag then []
            else if complete then recvLoopCopies complete rest state nleft
            else []
        | .datagram bytes =>
            let (nbuf, nread) := recvfrom state.nbuf bytes
            let hdr := netHdrAt nbuf
            if hdr.len = 0 then []
            else
              let nactual : Int := nread - hdrLen
              let (seqNo, kept) := seqCheck state.seqNo hdr
              let state := { state with nbuf := nbuf, seqNo := seqNo }
              if kept = false then recvLoopCopies complete rest state nleft
              else
                let nremain := if nactual > nleft then nleft else nactual
                let state :=
                  if nactual > nleft then
                    { state with nlen := nactual - nleft, noffset := nleft + hdrLen }
                  else state
                ⟨nremain, nleft⟩ :: recvLoopCopies complete rest state (nleft - nremain)

def udpRecvCopies (complete : Bool) (n : Int) (events : List NetEvent) (state : RecvState) :
    List Copy :=
  if state.nlen ≠ 0 then
    if state.nlen = -1 then []
    else if state.nlen > n then [⟨n, n⟩]
    else
      ⟨state.nlen, n⟩ ::
        recvLoopCopies complete events { state with nlen := 0 } (n - state.nlen)
  else recvLoopCopies complete events state n

/-! ## What has been received -/

def receivedSize (datagram : List Byte) : Nat := (datagram.take defaultPktSize).length

/-- The bytes of `nbuf` that datagrams have filled so far. -/
def filled (history : List (List Byte)) : Nat :=
  history.foldr (fun datagram most => max (receivedSize datagram) most) 0

def lastSize (history : List (List Byte)) : Nat :=
  (history.getLast?.map receivedSize).getD 0

/-- The stream has ended, or `noffset + nlen` is inside what has been received; bytes that
are pending are those of the last datagram. -/
def PendingInside (history : List (List Byte)) (state : RecvState) : Prop :=
  state.nlen = -1 ∨
    (0 ≤ state.nlen ∧ 0 ≤ state.noffset ∧ state.noffset + state.nlen ≤ filled history ∧
      (0 < state.nlen → state.noffset + state.nlen ≤ lastSize history))

def used (events rest : List NetEvent) : List NetEvent :=
  events.take (events.length - rest.length)

/-- Every copy of every call has a length between 0 and the room that is left, and what is
pending after a call has been received. -/
def RunBounded : List (List Byte) → List Call → List NetEvent → RecvState → Prop
  | _, [], _, _ => True
  | history, call :: calls, events, state =>
      (∀ copy ∈ udpRecvCopies call.complete call.n events state, copy.InRoom) ∧
        udpRecv call.complete call.n events state ≠ .fault ∧
        ∀ ret obs next rest,
          udpRecv call.complete call.n events state = .returned ret obs next rest →
            PendingInside (history ++ arrivals (used events rest)) next ∧
              RunBounded (history ++ arrivals (used events rest)) calls rest next

/-- A datagram that has no complete header is either out of sequence by the header that is
then in `nbuf`, or this header ends the stream. -/
def AcceptsNoShort : List Byte → (seqNo : Int) → List (List Byte) → Prop
  | _, _, [] => True
  | nbuf, seqNo, datagram :: rest =>
      let received := recvfrom nbuf datagram
      let hdr := netHdrAt received.1
      hdr.len = 0 ∨
        (((seqCheck seqNo hdr).2 = true → hdrLen ≤ received.2) ∧
          AcceptsNoShort received.1 (seqCheck seqNo hdr).1 rest)

/-! ## Sizes -/

theorem receivedSize_le (datagram : List Byte) : receivedSize datagram ≤ defaultPktSize := by
  rw [receivedSize, List.length_take]
  exact Nat.min_le_left _ _

theorem recvfrom_length {nbuf : List Byte} (size : nbuf.length = defaultPktSize)
    (datagram : List Byte) : (recvfrom nbuf datagram).1.length = defaultPktSize := by
  have fits := receivedSize_le datagram
  unfold receivedSize at fits
  simp only [recvfrom, List.length_append, List.length_drop, size]
  omega

theorem filled_append (first second : List (List Byte)) :
    filled (first ++ second) = max (filled first) (filled second) := by
  induction first with
  | nil => simp [filled]
  | cons datagram first ih =>
      simp only [filled, List.cons_append, List.foldr_cons] at ih ⊢
      rw [ih, Nat.max_assoc]

theorem filled_one (datagram : List Byte) : filled [datagram] = receivedSize datagram := by
  simp [filled]

theorem lastSize_append_one (history : List (List Byte)) (datagram : List Byte) :
    lastSize (history ++ [datagram]) = receivedSize datagram := by
  simp [lastSize]

theorem lastSize_le (history : List (List Byte)) : lastSize history ≤ defaultPktSize := by
  unfold lastSize
  cases history.getLast? with
  | none => exact Nat.zero_le _
  | some datagram => exact receivedSize_le datagram

theorem copyFrom_inside {nbuf : List Byte} (size : nbuf.length = defaultPktSize)
    {offset count : Int} (low : 0 ≤ offset) (nonneg : 0 ≤ count)
    (inside : offset + count ≤ defaultPktSize) : copyFrom nbuf offset count ≠ none := by
  rw [copyFrom, if_pos ⟨low, nonneg, by omega⟩]
  exact Option.some_ne_none _

theorem used_append (front rest : List NetEvent) : used (front ++ rest) rest = front := by
  simp [used]

/-! ## The receive loop -/

structure Receiving (history : List (List Byte)) (events : List NetEvent) (state : RecvState) :
    Prop where
  size : state.nbuf.length = defaultPktSize
  pending : PendingInside history state
  noShort : state.nlen ≠ -1 → AcceptsNoShort state.nbuf state.seqNo (arrivals events)

/-- What a call leaves when it returns. -/
def ReturnsInside (history : List (List Byte)) (events : List NetEvent) (result : Recv) : Prop :=
  result ≠ .fault ∧
    ∀ ret obs next rest, result = .returned ret obs next rest →
      ∃ front, events = front ++ rest ∧ Receiving (history ++ arrivals front) rest next

theorem ReturnsInside.returned {history : List (List Byte)} {events : List NetEvent}
    {ret : Int} {obs : List RecvObs} {state : RecvState} {front rest : List NetEvent}
    (split : events = front ++ rest)
    (receiving : Receiving (history ++ arrivals front) rest state) :
    ReturnsInside history events (.returned ret obs state rest) := by
  refine ⟨nofun, ?_⟩
  rintro ret obs next rest' ⟨⟩
  exact ⟨front, split, receiving⟩

theorem ReturnsInside.waiting {history : List (List Byte)} {events : List NetEvent} :
    ReturnsInside history events .waiting :=
  ⟨nofun, nofun⟩

theorem ReturnsInside.prepend {history : List (List Byte)} {events : List NetEvent}
    {result : Recv} (inside : ReturnsInside history events result) (front : List RecvObs) :
    ReturnsInside history events (result.prepend front) := by
  obtain ⟨noFault, returns⟩ := inside
  constructor
  · cases result with
    | returned ret obs next rest => exact nofun
    | waiting => exact nofun
    | fault => exact absurd rfl noFault
  · intro ret obs next rest returned
    obtain ⟨later, result, -⟩ := Recv.prepend_returned returned
    exact returns ret later next rest result

/-- An event in front of those for which the loop is known to return well. -/
theorem ReturnsInside.cons {history : List (List Byte)} {event : NetEvent}
    {events : List NetEvent} {result : Recv}
    (inside : ReturnsInside (history ++ arrivals [event]) events result) :
    ReturnsInside history (event :: events) result := by
  refine ⟨inside.1, ?_⟩
  intro ret obs next rest returned
  obtain ⟨front, split, receiving⟩ := inside.2 ret obs next rest returned
  refine ⟨event :: front, by rw [split]; rfl, ?_⟩
  rw [List.append_assoc, ← arrivals_append] at receiving
  exact receiving

theorem Receiving.tail {history : List (List Byte)} {event : NetEvent} {events : List NetEvent}
    {state : RecvState} (receiving : Receiving history (event :: events) state)
    (other : arrivals (event :: events) = arrivals events) : Receiving history events state :=
  ⟨receiving.size, receiving.pending, fun open' => other ▸ receiving.noShort open'⟩

/-- The state of the loop behind a datagram that has been dropped or copied whole. -/
theorem Receiving.datagram {history : List (List Byte)} {bytes : List Byte}
    {events : List NetEvent} {state : RecvState}
    (receiving : Receiving history (.datagram bytes :: events) state) (idle : state.nlen = 0)
    (carries : (netHdrAt (recvfrom state.nbuf bytes).1).len ≠ 0) :
    ((seqCheck state.seqNo (netHdrAt (recvfrom state.nbuf bytes).1)).2 = true →
        hdrLen ≤ receivedSize bytes) ∧
      Receiving (history ++ [bytes]) events
        { state with
          nbuf := (recvfrom state.nbuf bytes).1
          seqNo := (seqCheck state.seqNo (netHdrAt (recvfrom state.nbuf bytes).1)).1 } := by
  have noShort := receiving.noShort (by omega)
  simp only [arrivals, AcceptsNoShort, carries, false_or] at noShort
  obtain ⟨header, later⟩ := noShort
  refine ⟨header, recvfrom_length receiving.size bytes, .inr ?_, fun _ => later⟩
  rcases receiving.pending with ended | ⟨-, low, high, -⟩
  · omega
  · rw [filled_append]
    refine ⟨?_, low, ?_, ?_⟩ <;> simp only [idle] at * <;> omega

theorem recvLoopCopies_done (complete : Bool) (events : List NetEvent) (state : RecvState)
    (nleft : Int) (done : nleft ≤ 0) : recvLoopCopies complete events state nleft = [] := by
  cases events <;> simp [recvLoopCopies, done]

section Loop
variable (complete : Bool) (n : Int)

/-- The loop over these events copies in the room that is left and returns well.  While
bytes are missing none are pending. -/
def LoopBounded (events : List NetEvent) : Prop :=
  ∀ (history : List (List Byte)) (state : RecvState) (nleft ntotal : Int),
    Receiving history events state → (0 < nleft → state.nlen = 0) →
      (∀ copy ∈ recvLoopCopies complete events state nleft, copy.InRoom) ∧
        ReturnsInside history events (recvLoop complete n events state nleft ntotal)

variable {complete n}

theorem Receiving.leaves {history : List (List Byte)} {event : NetEvent}
    {events : List NetEvent} {state : RecvState}
    (receiving : Receiving history (event :: events) state) (other : arrivals [event] = [])
    (tail : arrivals (event :: events) = arrivals events) (ret : Int) :
    ReturnsInside history (event :: events) (.returned ret [] state events) := by
  have front : event :: events = [event] ++ events := rfl
  refine ReturnsInside.returned front ?_
  rw [other, List.append_nil]
  exact receiving.tail tail

theorem loop_done {history : List (List Byte)} {events : List NetEvent} {state : RecvState}
    {nleft : Int} (ntotal : Int) (receiving : Receiving history events state)
    (done : nleft ≤ 0) :
    (∀ copy ∈ recvLoopCopies complete events state nleft, copy.InRoom) ∧
      ReturnsInside history events (recvLoop complete n events state nleft ntotal) := by
  rw [recvLoop_done _ _ _ _ _ _ done, recvLoopCopies_done _ _ _ _ done]
  have front : events = [] ++ events := rfl
  refine ⟨fun _ member => absurd member List.not_mem_nil, ReturnsInside.returned front ?_⟩
  simpa [arrivals] using receiving

theorem LoopBounded.nil : LoopBounded complete n [] := by
  intro history state nleft ntotal receiving _
  by_cases done : nleft ≤ 0
  · exact loop_done ntotal receiving done
  · rw [recvLoop, if_neg done]
    exact ⟨fun _ member => absurd member List.not_mem_nil, ReturnsInside.waiting⟩

theorem LoopBounded.timeout {events : List NetEvent} (quitflag : Bool)
    (later : LoopBounded complete n events) :
    LoopBounded complete n (.timeout quitflag :: events) := by
  intro history state nleft ntotal receiving idle
  by_cases done : nleft ≤ 0
  · exact loop_done ntotal receiving done
  simp only [recvLoop, recvLoopCopies, if_neg done]
  by_cases quits : quitflag = true
  · rw [if_pos quits, if_pos quits]
    exact ⟨by simp, receiving.leaves rfl rfl _⟩
  rw [if_neg quits, if_neg quits]
  by_cases waits : complete = true
  · rw [if_pos waits, if_pos waits]
    obtain ⟨copies, returns⟩ := later history state nleft ntotal (receiving.tail rfl) idle
    refine ⟨copies, ReturnsInside.cons ?_⟩
    simpa [arrivals] using returns
  rw [if_neg waits, if_neg waits]
  refine ⟨by simp, ?_⟩
  split
  · exact receiving.leaves rfl rfl _
  · exact receiving.leaves rfl rfl _

/-- A datagram that is kept: its payload is copied as far as there is room. -/
theorem LoopBounded.kept {events : List NetEvent} (later : LoopBounded complete n events)
    {history : List (List Byte)} {state : RecvState} {bytes nbuf : List Byte} {seqNo : Int}
    (next : Receiving (history ++ [bytes]) events { state with nbuf := nbuf, seqNo := seqNo })
    (nothing : state.nlen = 0) (header : hdrLen ≤ receivedSize bytes) {nleft : Int}
    (wanted : 0 < nleft) (ntotal : Int) :
    let nactual : Int := receivedSize bytes - hdrLen
    let nremain := if nactual > nleft then nleft else nactual
    let state := { state with nbuf := nbuf, seqNo := seqNo }
    let state :=
      if nactual > nleft then
        { state with nlen := nactual - nleft, noffset := nleft + hdrLen }
      else state
    (Copy.mk nremain nleft).InRoom ∧ copyFrom nbuf hdrLen nremain ≠ none ∧
      (∀ copy ∈ recvLoopCopies complete events state (nleft - nremain), copy.InRoom) ∧
      ReturnsInside (history ++ [bytes]) events
        (recvLoop complete n events state (nleft - nremain) (ntotal + nremain)) := by
  have fits := receivedSize_le bytes
  have room := next.size
  by_cases longer : (receivedSize bytes : Int) - hdrLen > nleft
  · -- the rest of the payload stays pending
    simp only [if_pos longer]
    have pending : Receiving (history ++ [bytes]) events
        { state with
          nbuf := nbuf
          seqNo := seqNo
          nlen := receivedSize bytes - hdrLen - nleft
          noffset := nleft + hdrLen } := by
      refine ⟨room, .inr ?_, fun _ => next.noShort (by simp only [nothing]; omega)⟩
      rw [filled_append, filled_one, lastSize_append_one]
      refine ⟨?_, ?_, ?_, ?_⟩ <;> simp only <;> omega
    refine ⟨⟨Int.le_of_lt wanted, Int.le_refl _⟩, ?_, ?_⟩
    · exact copyFrom_inside room (by omega) (by omega) (by omega)
    · exact loop_done _ pending (by omega)
  · simp only [if_neg longer]
    refine ⟨⟨?_, ?_⟩, ?_, ?_⟩
    · simp only
      omega
    · simp only
      omega
    · exact copyFrom_inside room (by omega) (by omega) (by omega)
    · exact later _ _ _ _ next fun _ => nothing

theorem LoopBounded.datagram {events : List NetEvent} (bytes : List Byte)
    (later : LoopBounded complete n events) :
    LoopBounded complete n (.datagram bytes :: events) := by
  intro history state nleft ntotal receiving idle
  by_cases done : nleft ≤ 0
  · exact loop_done ntotal receiving done
  have nothing := idle (by omega)
  simp only [recvLoop, recvLoopCopies, if_neg done]
  by_cases ends : (netHdrAt (recvfrom state.nbuf bytes).1).len = 0
  · rw [if_pos ends, if_pos ends]
    have front : NetEvent.datagram bytes :: events = [.datagram bytes] ++ events := rfl
    refine ⟨by simp, ReturnsInside.returned front ?_⟩
    exact ⟨recvfrom_length receiving.size bytes, .inl rfl, fun more => absurd rfl more⟩
  rw [if_neg ends, if_neg ends]
  obtain ⟨header, next⟩ := receiving.datagram nothing ends
  by_cases dropped : (seqCheck state.seqNo (netHdrAt (recvfrom state.nbuf bytes).1)).2 = false
  · rw [if_pos dropped, if_pos dropped]
    obtain ⟨copies, returns⟩ := later _ _ nleft ntotal next fun _ => nothing
    exact ⟨copies, (returns.prepend _).cons⟩
  · rw [if_neg dropped, if_neg dropped]
    obtain ⟨inRoom, copied, copies, returns⟩ := later.kept next nothing
      (header (by simpa using dropped)) (Int.not_le.mp done) ntotal
    obtain ⟨payload, copied⟩ := Option.ne_none_iff_exists'.mp copied
    refine ⟨List.forall_mem_cons.mpr ⟨inRoom, copies⟩, ?_⟩
    have size : (recvfrom state.nbuf bytes).2 = receivedSize bytes := rfl
    simp only [size, copied]
    exact (returns.prepend _).cons

theorem recvLoop_bounded (events : List NetEvent) : LoopBounded complete n events := by
  induction events with
  | nil => exact LoopBounded.nil
  | cons event events ih =>
      have fails (other : arrivals [event] = [])
          (tail : arrivals (event :: events) = arrivals events)
          (stops : ∀ state nleft ntotal, 0 < nleft →
            recvLoopCopies complete (event :: events) state nleft = [] ∧
              recvLoop complete n (event :: events) state nleft ntotal =
                .returned (-1) [] state events) : LoopBounded complete n (event :: events) := by
        intro history state nleft ntotal receiving _
        by_cases done : nleft ≤ 0
        · exact loop_done ntotal receiving done
        obtain ⟨copies, returned⟩ := stops state nleft ntotal (by omega)
        rw [copies, returned]
        exact ⟨by simp, receiving.leaves other tail _⟩
      cases event with
      | selectFails =>
          refine fails rfl rfl fun state nleft ntotal wanted => ?_
          simp [recvLoop, recvLoopCopies, Int.not_le.mpr wanted]
      | recvFails =>
          refine fails rfl rfl fun state nleft ntotal wanted => ?_
          simp [recvLoop, recvLoopCopies, Int.not_le.mpr wanted]
      | timeout quitflag => exact ih.timeout quitflag
      | datagram bytes => exact ih.datagram bytes

end Loop

/-! ## Calls -/

theorem udpRecv_bounded (complete : Bool) {n : Int} (positive : 0 < n)
    {history : List (List Byte)} {events : List NetEvent} {state : RecvState}
    (receiving : Receiving history events state) :
    (∀ copy ∈ udpRecvCopies complete n events state, copy.InRoom) ∧
      ReturnsInside history events (udpRecv complete n events state) := by
  have here : events = [] ++ events := rfl
  have last := lastSize_le history
  unfold udpRecv udpRecvCopies
  by_cases pending : state.nlen ≠ 0
  · rw [if_pos pending, if_pos pending]
    by_cases ended : state.nlen = -1
    · rw [if_pos ended, if_pos ended]
      exact ⟨by simp, ReturnsInside.returned here (by simpa [arrivals] using receiving)⟩
    rw [if_neg ended, if_neg ended]
    obtain ⟨low, offset, high, inLast⟩ := receiving.pending.resolve_left ended
    have inLast := inLast (by omega)
    by_cases longer : state.nlen > n
    · rw [if_pos longer, if_pos longer]
      obtain ⟨copied, copies⟩ := Option.ne_none_iff_exists'.mp
        (copyFrom_inside receiving.size offset (Int.le_of_lt positive) (by omega))
      simp only [copies]
      refine ⟨by simp [Copy.InRoom, Int.le_of_lt positive], ReturnsInside.returned here ?_⟩
      refine ⟨receiving.size, .inr ?_, fun _ => receiving.noShort ended⟩
      simp only [arrivals, List.append_nil]
      refine ⟨?_, ?_, ?_, ?_⟩ <;> omega
    · rw [if_neg longer, if_neg longer]
      obtain ⟨copied, copies⟩ := Option.ne_none_iff_exists'.mp
        (copyFrom_inside receiving.size offset low (by omega))
      have taken : Receiving history events { state with nlen := 0 } := by
        refine ⟨receiving.size, .inr ?_, fun _ => receiving.noShort ended⟩
        refine ⟨?_, ?_, ?_, ?_⟩ <;> simp only <;> omega
      obtain ⟨later, returns⟩ := recvLoop_bounded events history { state with nlen := 0 }
        (n - state.nlen) state.nlen taken fun _ => rfl
      simp only [copies]
      refine ⟨List.forall_mem_cons.mpr ⟨⟨low, ?_⟩, later⟩, returns.prepend _⟩
      simp only
      omega
  · rw [if_neg pending, if_neg pending]
    exact recvLoop_bounded events history state n 0 receiving fun _ => by omega

theorem runBounded_of_receiving (calls : List Call) (positive : ∀ call ∈ calls, 0 < call.n) :
    ∀ (history : List (List Byte)) (events : List NetEvent) (state : RecvState),
      Receiving history events state → RunBounded history calls events state := by
  induction calls with
  | nil =>
      intro history events state _
      trivial
  | cons call calls ih =>
      intro history events state receiving
      obtain ⟨copies, noFault, returns⟩ := udpRecv_bounded call.complete
        (positive call List.mem_cons_self) receiving
      refine ⟨copies, noFault, ?_⟩
      intro ret obs next rest returned
      obtain ⟨front, rfl, after⟩ := returns ret obs next rest returned
      rw [used_append]
      exact ⟨after.pending, ih (fun other member => positive other (List.mem_cons_of_mem _ member))
        _ rest next after⟩

/-- In every run of calls, over datagrams none of which is shorter than the header and
kept, every copy is inside the caller's buffer and what is pending has been received. -/
theorem udpRecv_copies_in_room (nbuf : List Byte) (size : nbuf.length = defaultPktSize)
    (calls : List Call) (positive : ∀ call ∈ calls, 0 < call.n) (events : List NetEvent)
    (noShort : AcceptsNoShort nbuf 0 (arrivals events)) :
    RunBounded [] calls events (RecvState.initial nbuf 0) := by
  apply runBounded_of_receiving calls positive
  exact ⟨size, .inr (by simp [RecvState.initial, filled]), fun _ => noShort⟩

def oneByte : List Byte := netHdrBytes ⟨0, 1, 1⟩ ++ [7]

def freshBuf : List Byte := List.replicate defaultPktSize 0

theorem netHdrAt_oneByte (tail : List Byte) : netHdrAt (oneByte ++ tail) = ⟨0, 1, 1⟩ := by
  rw [netHdrAt_append oneByte tail (by decide)]
  decide

def threeBytes : List Byte := netHdrBytes ⟨1, 0, 3⟩ ++ [8, 9, 10]

theorem recvfrom_small {datagram : List Byte} (small : datagram.length ≤ defaultPktSize)
    (nbuf : List Byte) :
    recvfrom nbuf datagram = (datagram ++ nbuf.drop datagram.length, datagram.length) := by
  rw [recvfrom, List.take_of_length_le small]

theorem recvfrom_oneByte (nbuf : List Byte) :
    recvfrom nbuf oneByte = (oneByte ++ nbuf.drop 13, 13) :=
  recvfrom_small (by decide) nbuf

/-- Two calls: the first waits for the next frame and takes a part of it, the second the
rest. -/
theorem udpRecv_copies_in_room_two :
    let events := [.datagram oneByte, .timeout false, .datagram threeBytes]
    AcceptsNoShort freshBuf 0 (arrivals events) ∧
      RunBounded [] [⟨2, true⟩, ⟨2, false⟩] events (RecvState.initial freshBuf 0) := by
  intro events
  have noShort : AcceptsNoShort freshBuf 0 (arrivals events) := by
    have small : threeBytes.length ≤ defaultPktSize := by decide
    have long : hdrLen ≤ threeBytes.length := by decide
    refine .inr ⟨fun _ => ?_, .inr ⟨fun _ => ?_, trivial⟩⟩
    · rw [recvfrom_oneByte]
      decide
    · rw [recvfrom_small small]
      exact long
  refine ⟨noShort, udpRecv_copies_in_room freshBuf List.length_replicate
    [⟨2, true⟩, ⟨2, false⟩] ?_ events noShort⟩
  decide

/-- An empty datagram behind it leaves its header in `nbuf`.  The number is not the one
expected, but the datagram counts as an I frame, with a payload of -12 bytes. -/
theorem udpRecv_copies_negative_length :
    udpRecvCopies false 4 [.datagram oneByte, .datagram []] (RecvState.initial freshBuf 0) =
        [⟨1, 4⟩, ⟨-12, 3⟩] ∧
      ¬ RunBounded [] [⟨4, false⟩] [.datagram oneByte, .datagram []]
        (RecvState.initial freshBuf 0) := by
  have empty (nbuf : List Byte) : recvfrom nbuf [] = (nbuf, 0) := by
    simp [recvfrom]
  have copies : udpRecvCopies false 4 [.datagram oneByte, .datagram []]
      (RecvState.initial freshBuf 0) = [⟨1, 4⟩, ⟨-12, 3⟩] := by
    simp [udpRecvCopies, RecvState.initial, recvLoopCopies, recvfrom_oneByte, netHdrAt_oneByte,
      empty, seqCheck, hdrLen]
  refine ⟨copies, fun bounded => ?_⟩
  have inRoom := bounded.1 ⟨-12, 3⟩ (by rw [copies]; decide)
  exact absurd inRoom.1 (by decide)

end ImxTest.Vpu.UdpBounds
