import ImxTest.Lib.LittleEndian
import ImxTest.Vpu.Basic

/-!
# `udp_send` and `udp_recv`: the bitstream over datagrams

A datagram is a twelve-byte header (`struct nethdr`: sequence number, I-frame
flag, payload length) and a payload.  The receiver keeps one datagram in `nbuf`
and hands out what a read did not take on the next call; `nlen` is the number of
bytes left, or -1 once a datagram with length zero has ended the stream.

`udp_recv` is modelled over the list of things the socket does while the call
waits in `select`.  A call that has used them all is still waiting.
-/

set_option autoImplicit false

namespace ImxTest.Vpu.Udp

open ImxTest.Lib.LittleEndian

/-! ## The header on the wire -/

structure NetHdr where
  seqno : Int
  iframe : Int
  len : Int
  deriving DecidableEq, Repr

def hdrLen : Nat := 12

def intModulus : Nat := 256 ^ 4

def intBytes (value : Int) : List Byte := leEncode 4 (unsigned intModulus value)

def intAt (nbuf : List Byte) (offset : Nat) : Int :=
  signed intModulus (leDecode ((nbuf.drop offset).take 4))

def netHdrBytes (hdr : NetHdr) : List Byte :=
  intBytes hdr.seqno ++ intBytes hdr.iframe ++ intBytes hdr.len

def netHdrAt (nbuf : List Byte) : NetHdr :=
  ⟨intAt nbuf 0, intAt nbuf 4, intAt nbuf 8⟩

/-! ## Sending -/

structure SendState where
  seqNo : Int
  iframe : Int
  deriving DecidableEq, Repr

/-- The datagram of one `udp_send` of `buf`, or `none` where the function spins
because the datagram is too large.  The end-of-stream header leaves `iframe`
uninitialised; `stale` is what the stack held there. -/
def udpSend (state : SendState) (stale : Int) (buf : List Byte) :
    Option (List Byte × SendState) :=
  if buf.length + hdrLen > defaultPktSize then none
  else if buf.length = 0 then some (netHdrBytes ⟨-1, stale, 0⟩, state)
  else
    some (netHdrBytes ⟨state.seqNo, state.iframe, buf.length⟩ ++ buf,
      { state with seqNo := state.seqNo + 1 })

/-! ## Receiving -/

/-- The fields of `struct cmd_line` that `udp_recv` keeps between calls. -/
structure RecvState where
  nbuf : List Byte
  nlen : Int
  noffset : Int
  seqNo : Int
  deriving DecidableEq, Repr

/-- What one turn around the receive loop meets at the socket. -/
inductive NetEvent where
  | timeout (quitflag : Bool)
  | datagram (bytes : List Byte)
  | selectFails
  | recvFails
  deriving DecidableEq, Repr

/-- What a call does with payloads: it drops a datagram that is out of
sequence, copies the first bytes of one it accepts, or copies further bytes of
the one accepted last. -/
inductive RecvObs where
  | discarded (hdr : NetHdr)
  | first (hdr : NetHdr) (bytes : List Byte)
  | more (hdr : NetHdr) (bytes : List Byte)
  deriving DecidableEq, Repr

def RecvObs.bytes : RecvObs → List Byte
  | .discarded _ => []
  | .first _ bytes => bytes
  | .more _ bytes => bytes

inductive Recv where
  /-- `obs` is what was copied to the caller's buffer, from its start on. -/
  | returned (ret : Int) (obs : List RecvObs) (state : RecvState) (rest : List NetEvent)
  | waiting
  /-- A copy outside `nbuf` or of negative length. -/
  | fault
  deriving DecidableEq, Repr

def Recv.prepend (obs : List RecvObs) : Recv → Recv
  | .returned ret later state rest => .returned ret (obs ++ later) state rest
  | .waiting => .waiting
  | .fault => .fault

def recvfrom (nbuf datagram : List Byte) : List Byte × Nat :=
  let got := datagram.take defaultPktSize
  (got ++ nbuf.drop got.length, got.length)

/-- `memcpy(dst, nbuf + offset, count)`. -/
def copyFrom (nbuf : List Byte) (offset count : Int) : Option (List Byte) :=
  if 0 ≤ offset ∧ 0 ≤ count ∧ offset + count ≤ nbuf.length then
    some ((nbuf.drop offset.toNat).take count.toNat)
  else none

/-- The sequence check: the expected number after it, and whether the datagram
is kept. -/
def seqCheck (seqNo : Int) (hdr : NetHdr) : Int × Bool :=
  if seqNo ≠ hdr.seqno then
    -- read till we get an I frame
    if hdr.iframe = 1 then (hdr.seqno + 1, true) else (seqNo + 1, false)
  else (seqNo + 1, true)

/-- The receive loop; `nleft` bytes of the `n` asked for are missing, and
`ntotal` have been copied. -/
def recvLoop (complete : Bool) (n : Int) :
    List NetEvent → RecvState → (nleft ntotal : Int) → Recv
  | [], state, nleft, _ => if nleft ≤ 0 then .returned n [] state [] else .waiting
  | event :: rest, state, nleft, ntotal =>
      if nleft ≤ 0 then .returned n [] state (event :: rest)
      else
        match event with
        | .selectFails => .returned (-1) [] state rest
        | .recvFails => .returned (-1) [] state rest
        | .timeout quitflag =>
            if quitflag then .returned ntotal [] state rest
            -- wait for complete buffer to be full
            else if complete then recvLoop complete n rest state nleft ntotal
            else if ntotal = 0 then .returned (-eagain) [] state rest
            else .returned ntotal [] state rest
        | .datagram bytes =>
            let (nbuf, nread) := recvfrom state.nbuf bytes
            let hdr := netHdrAt nbuf
            if hdr.len = 0 then
              .returned (n - nleft) [] { state with nbuf := nbuf, nlen := -1 } rest
            else
              let nactual : Int := nread - hdrLen
              let (seqNo, kept) := seqCheck state.seqNo hdr
              let state := { state with nbuf := nbuf, seqNo := seqNo }
              if kept = false then
                (recvLoop complete n rest state nleft ntotal).prepend [.discarded hdr]
              else
                let nremain := if nactual > nleft then nleft else nactual
                let state :=
                  if nactual > nleft then
                    { state with nlen := nactual - nleft, noffset := nleft + hdrLen }
                  else state
                match copyFrom nbuf hdrLen nremain with
                | none => .fault
                | some copied =>
                    (recvLoop complete n rest state (nleft - nremain) (ntotal + nremain)).prepend
                      [.first hdr copied]

def udpRecv (complete : Bool) (n : Int) (events : List NetEvent) (state : RecvState) : Recv :=
  if state.nlen ≠ 0 then
    if state.nlen = -1 then .returned 0 [] state events
    else if state.nlen > n then
      match copyFrom state.nbuf state.noffset n with
      | none => .fault
      | some copied =>
          .returned n [.more (netHdrAt state.nbuf) copied]
            { state with nlen := state.nlen - n, noffset := state.noffset + n } events
    else
      match copyFrom state.nbuf state.noffset state.nlen with
      | none => .fault
      | some copied =>
          (recvLoop complete n events { state with nlen := 0 } (n - state.nlen)
            state.nlen).prepend [.more (netHdrAt state.nbuf) copied]
  else recvLoop complete n events state n 0

/-- The receiver before its first datagram; `nbuf` and `noffset` are whatever the
allocation left there. -/
def RecvState.initial (nbuf : List Byte) (noffset : Int) : RecvState := ⟨nbuf, 0, noffset, 0⟩

structure Call where
  n : Int
  complete : Bool
  deriving DecidableEq, Repr

structure CallResult where
  n : Int
  ret : Int
  obs : List RecvObs
  deriving DecidableEq, Repr

def CallResult.bytes (result : CallResult) : List Byte := result.obs.flatMap RecvObs.bytes

/-- A sequence of calls that all return, one after the other. -/
def recvCalls : List Call → List NetEvent → RecvState →
    Option (List CallResult × RecvState × List NetEvent)
  | [], events, state => some ([], state, events)
  | call :: calls, events, state =>
      match udpRecv call.complete call.n events state with
      | .returned ret obs next rest => do
          let (results, final) ← recvCalls calls rest next
          some (⟨call.n, ret, obs⟩ :: results, final)
      | .waiting => none
      | .fault => none

def delivered (results : List CallResult) : List Byte :=
  (results.filter fun result => 0 < result.ret).flatMap CallResult.bytes

/-! ## Headers survive the wire -/

def InInt (value : Int) : Prop := -2 ^ 31 ≤ value ∧ value < 2 ^ 31

instance (value : Int) : Decidable (InInt value) := inferInstanceAs (Decidable (_ ∧ _))

structure NetHdr.Fits (hdr : NetHdr) : Prop where
  seqno : InInt hdr.seqno
  iframe : InInt hdr.iframe
  len : InInt hdr.len

@[simp]
theorem intBytes_length (value : Int) : (intBytes value).length = 4 := by
  simp [intBytes]

@[simp]
theorem netHdrBytes_length (hdr : NetHdr) : (netHdrBytes hdr).length = hdrLen := by
  simp [netHdrBytes, hdrLen]

theorem intAt_intBytes (before after : List Byte) (value : Int) (offset : Nat)
    (start : before.length = offset) (fits : InInt value) :
    intAt (before ++ (intBytes value ++ after)) offset = value := by
  obtain ⟨low, high⟩ := fits
  have word : unsigned intModulus value < 256 ^ 4 := unsigned_lt intModulus value (by decide)
  unfold intAt
  rw [← start, List.drop_left, List.take_append_of_le_length (by simp),
    List.take_of_length_le (by simp), intBytes, leDecode_leEncode, Nat.mod_eq_of_lt word]
  exact signed_unsigned intModulus value
    (by simp only [intModulus]; omega) (by simp only [intModulus]; omega)

theorem netHdrAt_netHdrBytes (hdr : NetHdr) (after : List Byte) (fits : hdr.Fits) :
    netHdrAt (netHdrBytes hdr ++ after) = hdr := by
  have seqno := intAt_intBytes [] (intBytes hdr.iframe ++ (intBytes hdr.len ++ after))
    hdr.seqno 0 rfl fits.seqno
  have iframe := intAt_intBytes (intBytes hdr.seqno) (intBytes hdr.len ++ after)
    hdr.iframe 4 (by simp) fits.iframe
  have len := intAt_intBytes (intBytes hdr.seqno ++ intBytes hdr.iframe) after
    hdr.len 8 (by simp) fits.len
  simp only [List.nil_append, List.append_assoc] at seqno iframe len
  simp only [netHdrAt, netHdrBytes, List.append_assoc, seqno, iframe, len]

theorem intAt_append (datagram tail : List Byte) (offset : Nat)
    (inside : offset + 4 ≤ datagram.length) :
    intAt (datagram ++ tail) offset = intAt datagram offset := by
  unfold intAt
  rw [List.drop_append_of_le_length (by omega),
    List.take_append_of_le_length (by rw [List.length_drop]; omega)]

theorem netHdrAt_append (datagram tail : List Byte) (inside : hdrLen ≤ datagram.length) :
    netHdrAt (datagram ++ tail) = netHdrAt datagram := by
  unfold hdrLen at inside
  simp only [netHdrAt, intAt_append datagram tail _ (show 0 + 4 ≤ datagram.length by omega),
    intAt_append datagram tail _ (show 4 + 4 ≤ datagram.length by omega),
    intAt_append datagram tail _ (show 8 + 4 ≤ datagram.length by omega)]

/-! ## Datagrams -/

/-- A datagram as `udp_send` makes them: a header that gives the length of the
payload behind it. -/
structure WellFormed (datagram : List Byte) : Prop where
  header : hdrLen ≤ datagram.length
  fits : datagram.length ≤ defaultPktSize
  len : (netHdrAt datagram).len = datagram.length - hdrLen

def payloadOf (datagram : List Byte) : List Byte := datagram.drop hdrLen

/-! ## What the sender puts on the wire -/

structure Sent where
  iframe : Int
  payload : List Byte
  deriving DecidableEq, Repr

structure Sent.Ok (sent : Sent) : Prop where
  nonempty : sent.payload ≠ []
  fits : sent.payload.length + hdrLen ≤ defaultPktSize
  iframe : InInt sent.iframe

def wireHdr (seqNo : Int) (sent : Sent) : NetHdr := ⟨seqNo, sent.iframe, sent.payload.length⟩

def wireDatagram (seqNo : Int) (sent : Sent) : List Byte :=
  netHdrBytes (wireHdr seqNo sent) ++ sent.payload

def wire (seqNo : Int) : List Sent → List (List Byte)
  | [] => []
  | sent :: rest => wireDatagram seqNo sent :: wire (seqNo + 1) rest

def arrivals : List NetEvent → List (List Byte)
  | [] => []
  | .datagram bytes :: rest => bytes :: arrivals rest
  | _ :: rest => arrivals rest

def timeouts (events : List NetEvent) : Nat := events.count (.timeout false)

/-- `select` and `recvfrom` never fail and `quitflag` stays unset. -/
def Quiet (events : List NetEvent) : Prop :=
  ∀ event ∈ events, event = .timeout false ∨ ∃ bytes, event = .datagram bytes

theorem mem_wire {seqNo : Int} {sent : List Sent} {datagram : List Byte}
    (member : datagram ∈ wire seqNo sent) :
    ∃ number one, seqNo ≤ number ∧ number < seqNo + sent.length ∧ one ∈ sent ∧
      datagram = wireDatagram number one := by
  induction sent generalizing seqNo with
  | nil => simp [wire] at member
  | cons head rest ih =>
      simp only [List.length_cons]
      rcases List.mem_cons.mp member with rfl | later
      · exact ⟨seqNo, head, by omega, by omega, by simp, rfl⟩
      · obtain ⟨number, one, low, high, isSent, rfl⟩ := ih later
        exact ⟨number, one, by omega, by omega, by simp [isSent], rfl⟩

theorem wireHdr_fits (seqNo : Int) (sent : Sent) (ok : sent.Ok) (low : 0 ≤ seqNo)
    (high : seqNo < 2 ^ 31) : (wireHdr seqNo sent).Fits := by
  have fits := ok.fits
  refine ⟨⟨?_, high⟩, ok.iframe, ⟨?_, ?_⟩⟩
  · simp only [wireHdr]
    omega
  · simp only [wireHdr]
    omega
  · simp only [wireHdr]
    unfold defaultPktSize at fits
    omega

theorem wireHdr_len_ne (seqNo : Int) (sent : Sent) (ok : sent.Ok) :
    (wireHdr seqNo sent).len ≠ 0 := by
  have positive : 0 < sent.payload.length := List.length_pos_iff.mpr ok.nonempty
  simp only [wireHdr]
  omega

theorem netHdrAt_wireDatagram (seqNo : Int) (sent : Sent) (ok : sent.Ok) (low : 0 ≤ seqNo)
    (high : seqNo < 2 ^ 31) :
    netHdrAt (wireDatagram seqNo sent) = wireHdr seqNo sent :=
  netHdrAt_netHdrBytes _ _ (wireHdr_fits seqNo sent ok low high)

@[simp]
theorem payloadOf_wireDatagram (seqNo : Int) (sent : Sent) :
    payloadOf (wireDatagram seqNo sent) = sent.payload := by
  rw [payloadOf, wireDatagram, ← netHdrBytes_length (wireHdr seqNo sent), List.drop_left]

theorem wireDatagram_wellFormed (seqNo : Int) (sent : Sent) (ok : sent.Ok) (low : 0 ≤ seqNo)
    (high : seqNo < 2 ^ 31) : WellFormed (wireDatagram seqNo sent) := by
  have fits := ok.fits
  have length : (wireDatagram seqNo sent).length = hdrLen + sent.payload.length := by
    simp [wireDatagram]
  refine ⟨by omega, by omega, ?_⟩
  rw [netHdrAt_wireDatagram seqNo sent ok low high, length]
  simp only [wireHdr]
  omega

theorem netHdrAt_netHdrBytes_nil (hdr : NetHdr) (fits : hdr.Fits) :
    netHdrAt (netHdrBytes hdr) = hdr := by
  have read := netHdrAt_netHdrBytes hdr [] fits
  rwa [List.append_nil] at read

theorem endHdr_fits (stale : Int) (fits : InInt stale) : (⟨-1, stale, 0⟩ : NetHdr).Fits :=
  ⟨show InInt (-1) by decide, fits, show InInt 0 by decide⟩

theorem netHdrBytes_wellFormed (hdr : NetHdr) (fits : hdr.Fits) (ends : hdr.len = 0) :
    WellFormed (netHdrBytes hdr) := by
  have length := netHdrBytes_length hdr
  refine ⟨by omega, by rw [length]; decide, ?_⟩
  rw [netHdrAt_netHdrBytes_nil hdr fits, ends, length]
  omega

@[simp]
theorem seqCheck_wireHdr (seqNo : Int) (sent : Sent) :
    seqCheck seqNo (wireHdr seqNo sent) = (seqNo + 1, true) := by
  simp [seqCheck, wireHdr]

/-! ## One turn of the loop at a datagram -/

def receivedBuf (state : RecvState) (datagram : List Byte) : List Byte :=
  datagram ++ state.nbuf.drop datagram.length

theorem receivedBuf_length (state : RecvState) (datagram : List Byte)
    (wf : WellFormed datagram) (size : state.nbuf.length = defaultPktSize) :
    (receivedBuf state datagram).length = defaultPktSize := by
  have fits := wf.fits
  simp only [receivedBuf, List.length_append, List.length_drop, size]
  omega

/-- A copy of payload bytes, from the start of the payload or from further on. -/
theorem copyFrom_receivedBuf (state : RecvState) (datagram : List Byte)
    (wf : WellFormed datagram) (start count : Nat)
    (inside : start + count ≤ (payloadOf datagram).length) :
    copyFrom (receivedBuf state datagram) (start + hdrLen) count =
      some (((payloadOf datagram).drop start).take count) := by
  have header := wf.header
  simp only [payloadOf, List.length_drop] at inside
  have bounds : (0 : Int) ≤ (start : Int) + hdrLen ∧ (0 : Int) ≤ count ∧
      (start : Int) + hdrLen + count ≤ (receivedBuf state datagram).length := by
    simp only [receivedBuf, List.length_append]
    omega
  have offset : ((start : Int) + hdrLen).toNat = hdrLen + start := by omega
  rw [copyFrom, if_pos bounds, offset, Int.toNat_natCast, payloadOf, List.drop_drop,
    receivedBuf, List.drop_append_of_le_length (by omega),
    List.take_append_of_le_length (by rw [List.length_drop]; omega)]

theorem recvLoop_done (complete : Bool) (n : Int) (events : List NetEvent) (state : RecvState)
    (nleft ntotal : Int) (done : nleft ≤ 0) :
    recvLoop complete n events state nleft ntotal = .returned n [] state events := by
  cases events <;> simp [recvLoop, done]

/-- Without a datagram the loop waits on or returns, and leaves its state alone. -/
theorem recvLoop_other (complete : Bool) (n : Int) (event : NetEvent) (state : RecvState)
    (nleft ntotal : Int) (wanted : ¬ nleft ≤ 0) (other : ∀ bytes, event ≠ .datagram bytes) :
    (∀ rest, recvLoop complete n (event :: rest) state nleft ntotal =
      recvLoop complete n rest state nleft ntotal) ∨
    ∃ ret, ∀ rest, recvLoop complete n (event :: rest) state nleft ntotal =
      .returned ret [] state rest := by
  cases event with
  | selectFails => exact .inr ⟨-1, fun rest => by simp only [recvLoop, if_neg wanted]⟩
  | recvFails => exact .inr ⟨-1, fun rest => by simp only [recvLoop, if_neg wanted]⟩
  | timeout quitflag =>
      simp only [recvLoop, if_neg wanted]
      by_cases quits : quitflag = true
      · exact .inr ⟨ntotal, fun rest => if_pos quits⟩
      by_cases waits : complete = true
      · exact .inl fun rest => by rw [if_neg quits, if_pos waits]
      by_cases empty : ntotal = 0
      · exact .inr ⟨-eagain, fun rest => by rw [if_neg quits, if_neg waits, if_pos empty]⟩
      · exact .inr ⟨ntotal, fun rest => by rw [if_neg quits, if_neg waits, if_neg empty]⟩
  | datagram bytes => exact absurd rfl (other bytes)

section Datagram
variable (complete : Bool) (n : Int) (rest : List NetEvent) (state : RecvState)
  (nleft ntotal : Int) (datagram : List Byte) (wf : WellFormed datagram) (wanted : 0 < nleft)
include wf wanted

theorem recvLoop_ends (ends : (netHdrAt datagram).len = 0) :
    recvLoop complete n (.datagram datagram :: rest) state nleft ntotal =
      .returned (n - nleft) []
        { state with nbuf := receivedBuf state datagram, nlen := -1 } rest := by
  simp only [recvLoop, if_neg (show ¬ nleft ≤ 0 by omega), recvfrom,
    List.take_of_length_le wf.fits, netHdrAt_append datagram _ wf.header, ends, if_true,
    receivedBuf]

variable (carries : (netHdrAt datagram).len ≠ 0)
include carries

theorem recvLoop_discards
    (dropped : (seqCheck state.seqNo (netHdrAt datagram)).2 = false) :
    recvLoop complete n (.datagram datagram :: rest) state nleft ntotal =
      (recvLoop complete n rest
        { state with
          nbuf := receivedBuf state datagram
          seqNo := (seqCheck state.seqNo (netHdrAt datagram)).1 } nleft ntotal).prepend
        [.discarded (netHdrAt datagram)] := by
  simp only [recvLoop, if_neg (show ¬ nleft ≤ 0 by omega), recvfrom,
    List.take_of_length_le wf.fits, netHdrAt_append datagram _ wf.header, if_neg carries,
    dropped, if_true, receivedBuf]

variable (kept : (seqCheck state.seqNo (netHdrAt datagram)).2 = true)
include kept

/-- The loop at a datagram it keeps, up to the copy. -/
theorem recvLoop_keeps :
    recvLoop complete n (.datagram datagram :: rest) state nleft ntotal =
      let nactual : Int := (payloadOf datagram).length
      let nremain := if nactual > nleft then nleft else nactual
      let next :=
        { state with
          nbuf := receivedBuf state datagram
          seqNo := (seqCheck state.seqNo (netHdrAt datagram)).1 }
      (recvLoop complete n rest
        (if nactual > nleft then
          { next with nlen := nactual - nleft, noffset := nleft + hdrLen } else next)
        (nleft - nremain) (ntotal + nremain)).prepend
          [.first (netHdrAt datagram) ((payloadOf datagram).take nremain.toNat)] := by
  have header := wf.header
  have nactual : ((datagram.length : Int) - hdrLen) = (payloadOf datagram).length := by
    simp only [payloadOf, List.length_drop]
    omega
  have copied := copyFrom_receivedBuf state datagram wf 0
    (if ((payloadOf datagram).length : Int) > nleft then nleft
      else (payloadOf datagram).length).toNat (by split <;> omega)
  have amount : (((if ((payloadOf datagram).length : Int) > nleft then nleft
      else (payloadOf datagram).length).toNat : Nat) : Int) =
        if ((payloadOf datagram).length : Int) > nleft then nleft
          else (payloadOf datagram).length := by
    split <;> omega
  rw [amount, List.drop_zero, Int.natCast_zero, Int.zero_add] at copied
  unfold receivedBuf at copied
  simp only [recvLoop, if_neg (show ¬ nleft ≤ 0 by omega), recvfrom,
    List.take_of_length_le wf.fits, netHdrAt_append datagram _ wf.header, if_neg carries,
    kept, Bool.true_eq_false, if_false, nactual, copied, receivedBuf]

theorem recvLoop_keeps_part (longer : ((payloadOf datagram).length : Int) > nleft) :
    recvLoop complete n (.datagram datagram :: rest) state nleft ntotal =
      (recvLoop complete n rest
        { state with
          nbuf := receivedBuf state datagram
          seqNo := (seqCheck state.seqNo (netHdrAt datagram)).1
          nlen := (payloadOf datagram).length - nleft
          noffset := nleft + hdrLen } 0 (ntotal + nleft)).prepend
        [.first (netHdrAt datagram) ((payloadOf datagram).take nleft.toNat)] := by
  rw [recvLoop_keeps complete n rest state nleft ntotal datagram wf wanted carries kept]
  simp only [if_pos longer, Int.sub_self]

theorem recvLoop_keeps_whole (whole : ((payloadOf datagram).length : Int) ≤ nleft) :
    recvLoop complete n (.datagram datagram :: rest) state nleft ntotal =
      (recvLoop complete n rest
        { state with
          nbuf := receivedBuf state datagram
          seqNo := (seqCheck state.seqNo (netHdrAt datagram)).1 }
        (nleft - (payloadOf datagram).length) (ntotal + (payloadOf datagram).length)).prepend
        [.first (netHdrAt datagram) (payloadOf datagram)] := by
  rw [recvLoop_keeps complete n rest state nleft ntotal datagram wf wanted carries kept]
  simp only [if_neg (show ¬ ((payloadOf datagram).length : Int) > nleft by omega),
    Int.toNat_natCast, List.take_length]

end Datagram

/-! ## Events that come later -/

theorem arrivals_append (first second : List NetEvent) :
    arrivals (first ++ second) = arrivals first ++ arrivals second := by
  induction first with
  | nil => rfl
  | cons event rest ih => cases event <;> simp [arrivals, ih]

theorem Recv.prepend_returned {front obs : List RecvObs} {result : Recv} {ret : Int}
    {state : RecvState} {rest : List NetEvent}
    (returned : result.prepend front = .returned ret obs state rest) :
    ∃ later, result = .returned ret later state rest ∧ obs = front ++ later := by
  cases result with
  | returned ret' later state' rest' =>
      simp only [Recv.prepend, Recv.returned.injEq] at returned
      obtain ⟨rfl, rfl, rfl, rfl⟩ := returned
      exact ⟨later, rfl, rfl⟩
  | waiting => simp [Recv.prepend] at returned
  | fault => simp [Recv.prepend] at returned

theorem recvLoop_append (complete : Bool) (n : Int) (events tail : List NetEvent)
    (state : RecvState) (nleft ntotal ret : Int) (obs : List RecvObs) (next : RecvState)
    (rest : List NetEvent)
    (returned : recvLoop complete n events state nleft ntotal = .returned ret obs next rest) :
    recvLoop complete n (events ++ tail) state nleft ntotal =
      .returned ret obs next (rest ++ tail) := by
  induction events generalizing state nleft ntotal obs with
  | nil =>
      by_cases done : nleft ≤ 0
      · rw [recvLoop_done _ _ _ _ _ _ done] at returned ⊢
        obtain ⟨rfl, rfl, rfl, rfl⟩ := Recv.returned.inj returned
        rfl
      · simp [recvLoop, done] at returned
  | cons event later ih =>
      by_cases done : nleft ≤ 0
      · rw [recvLoop_done _ _ _ _ _ _ done] at returned ⊢
        obtain ⟨rfl, rfl, rfl, rfl⟩ := Recv.returned.inj returned
        rfl
      by_cases other : ∀ bytes, event ≠ .datagram bytes
      · rw [List.cons_append]
        rcases recvLoop_other complete n event state nleft ntotal done other with
          waits | ⟨value, stops⟩
        · rw [waits] at returned ⊢
          exact ih state nleft ntotal obs returned
        · rw [stops] at returned ⊢
          obtain ⟨rfl, rfl, rfl, rfl⟩ := Recv.returned.inj returned
          rfl
      obtain ⟨bytes, rfl⟩ := not_forall_not.mp other
      simp only [List.cons_append, recvLoop, if_neg done] at returned ⊢
      by_cases ends : (netHdrAt (recvfrom state.nbuf bytes).1).len = 0
      · rw [if_pos ends] at returned ⊢
        obtain ⟨rfl, rfl, rfl, rfl⟩ := Recv.returned.inj returned
        rfl
      rw [if_neg ends] at returned ⊢
      by_cases dropped :
          (seqCheck state.seqNo (netHdrAt (recvfrom state.nbuf bytes).1)).2 = false
      · rw [if_pos dropped] at returned ⊢
        obtain ⟨obs', returned', rfl⟩ := Recv.prepend_returned returned
        rw [ih _ _ _ _ returned']
        rfl
      rw [if_neg dropped] at returned ⊢
      generalize copyFrom _ _ _ = copy at returned ⊢
      cases copy with
      | none => cases returned
      | some copied =>
          obtain ⟨obs', returned', rfl⟩ := Recv.prepend_returned returned
          simp only [ih _ _ _ _ returned']
          rfl

theorem udpRecv_append (complete : Bool) (n : Int) (events tail : List NetEvent)
    (state : RecvState) (ret : Int) (obs : List RecvObs) (next : RecvState)
    (rest : List NetEvent)
    (returned : udpRecv complete n events state = .returned ret obs next rest) :
    udpRecv complete n (events ++ tail) state = .returned ret obs next (rest ++ tail) := by
  unfold udpRecv at returned ⊢
  by_cases pending : state.nlen ≠ 0
  · rw [if_pos pending] at returned ⊢
    by_cases ended : state.nlen = -1
    · rw [if_pos ended] at returned ⊢
      obtain ⟨rfl, rfl, rfl, rfl⟩ := Recv.returned.inj returned
      rfl
    rw [if_neg ended] at returned ⊢
    by_cases longer : state.nlen > n
    · rw [if_pos longer] at returned ⊢
      generalize copyFrom _ _ _ = copy at returned ⊢
      cases copy with
      | none => cases returned
      | some copied =>
          obtain ⟨rfl, rfl, rfl, rfl⟩ := Recv.returned.inj returned
          rfl
    · rw [if_neg longer] at returned ⊢
      generalize copyFrom _ _ _ = copy at returned ⊢
      cases copy with
      | none => cases returned
      | some copied =>
          obtain ⟨obs', returned', rfl⟩ := Recv.prepend_returned returned
          simp only [recvLoop_append _ _ _ tail _ _ _ _ _ _ _ returned']
          rfl
  · rw [if_neg pending] at returned ⊢
    exact recvLoop_append _ _ _ _ _ _ _ _ _ _ _ returned

theorem recvCalls_append (calls : List Call) (events tail : List NetEvent) (state : RecvState)
    {results : List CallResult} {final : RecvState} {rest : List NetEvent}
    (run : recvCalls calls events state = some (results, final, rest)) :
    recvCalls calls (events ++ tail) state = some (results, final, rest ++ tail) := by
  induction calls generalizing events state results with
  | nil =>
      simp only [recvCalls, Option.some.injEq, Prod.mk.injEq] at run ⊢
      obtain ⟨rfl, rfl, rfl⟩ := run
      exact ⟨rfl, rfl, rfl⟩
  | cons call calls ih =>
      simp only [recvCalls] at run ⊢
      split at run
      · rename_i ret obs next later returned
        simp only [Option.bind_eq_bind, Option.bind_eq_some_iff, Option.some.injEq,
          Prod.mk.injEq] at run
        obtain ⟨⟨others, _⟩, run', rfl, rfl⟩ := run
        rw [udpRecv_append _ _ _ tail _ _ _ _ _ returned]
        simp [ih later next run']
      · cases run
      · cases run

end ImxTest.Vpu.Udp
