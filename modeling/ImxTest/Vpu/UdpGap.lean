import ImxTest.Lib.Watch
import ImxTest.Vpu.Udp

/-!
# The receiver over a network that loses, repeats and reorders

`Traced` relates what a run of `udp_recv` calls does with payloads to the
headers that arrived.  The expected number is a function of these headers alone:
an I frame sets it, every other arrival advances it, kept or not.
-/

set_option autoImplicit false

namespace ImxTest.Vpu.UdpGap

open ImxTest.Lib.Watch
open ImxTest.Vpu.Udp

/-! ## What a run does with the arrivals -/

def carried (events : List NetEvent) : List NetHdr :=
  ((arrivals events).map netHdrAt).filter fun hdr => hdr.len ≠ 0

/-- `Traced current seqNo hdrs obs current' seqNo'`: with `seqNo` expected, the
arrivals `hdrs` are treated as `obs` says.  `current` is the header of the
datagram kept last, if nothing was discarded since. -/
inductive Traced : Option NetHdr → Int → List NetHdr → List RecvObs → Option NetHdr → Int → Prop
    where
  | nil (current : Option NetHdr) (seqNo : Int) : Traced current seqNo [] [] current seqNo
  | discard {current current' : Option NetHdr} {seqNo seqNo' : Int} {hdrs : List NetHdr}
      {obs : List RecvObs} (hdr : NetHdr) (inter : hdr.iframe ≠ 1) (out : hdr.seqno ≠ seqNo)
      (rest : Traced none (seqNo + 1) hdrs obs current' seqNo') :
      Traced current seqNo (hdr :: hdrs) (.discarded hdr :: obs) current' seqNo'
  | keep {current current' : Option NetHdr} {seqNo seqNo' : Int} {hdrs : List NetHdr}
      {obs : List RecvObs} (hdr : NetHdr) (bytes : List Byte)
      (kept : hdr.iframe = 1 ∨ hdr.seqno = seqNo) (nonempty : bytes ≠ [])
      (rest : Traced (some hdr) (hdr.seqno + 1) hdrs obs current' seqNo') :
      Traced current seqNo (hdr :: hdrs) (.first hdr bytes :: obs) current' seqNo'
  | more {current' : Option NetHdr} {seqNo seqNo' : Int} {hdrs : List NetHdr}
      {obs : List RecvObs} (hdr : NetHdr) (bytes : List Byte)
      (rest : Traced (some hdr) seqNo hdrs obs current' seqNo') :
      Traced (some hdr) seqNo hdrs (.more hdr bytes :: obs) current' seqNo'

theorem Traced.append {current middle current' : Option NetHdr} {seqNo seqNo₁ seqNo' : Int}
    {hdrs later : List NetHdr} {obs obs' : List RecvObs}
    (first : Traced current seqNo hdrs obs middle seqNo₁)
    (second : Traced middle seqNo₁ later obs' current' seqNo') :
    Traced current seqNo (hdrs ++ later) (obs ++ obs') current' seqNo' := by
  induction first with
  | nil => exact second
  | discard hdr inter out _ ih => exact .discard hdr inter out (ih second)
  | keep hdr bytes kept nonempty _ ih => exact .keep hdr bytes kept nonempty (ih second)
  | more hdr bytes _ ih => exact .more hdr bytes (ih second)

/-- Bytes that are pending belong to the datagram kept last. -/
def Pending (state : RecvState) (current : Option NetHdr) : Prop :=
  state.nlen = -1 ∨ state.nlen = 0 ∨ (0 < state.nlen ∧ current = some (netHdrAt state.nbuf))

/-- The socket's part in a piece of the run, and what came of it. -/
def TracedRun (events : List NetEvent) (state : RecvState) (current : Option NetHdr)
    (obs : List RecvObs) (next : RecvState) (rest : List NetEvent) : Prop :=
  ∃ used current', events = used ++ rest ∧
    Traced current state.seqNo (carried used) obs current' next.seqNo ∧ Pending next current'

theorem carried_append (first second : List NetEvent) :
    carried (first ++ second) = carried first ++ carried second := by
  simp [carried, arrivals_append]

theorem seqCheck_kept (seqNo : Int) (hdr : NetHdr) (kept : (seqCheck seqNo hdr).2 = true) :
    (hdr.iframe = 1 ∨ hdr.seqno = seqNo) ∧ (seqCheck seqNo hdr).1 = hdr.seqno + 1 := by
  unfold seqCheck at kept ⊢
  by_cases differs : seqNo ≠ hdr.seqno
  · by_cases intra : hdr.iframe = 1
    · simp [differs, intra]
    · simp [differs, intra] at kept
  · have same : seqNo = hdr.seqno := by omega
    simp [same]

theorem seqCheck_dropped (seqNo : Int) (hdr : NetHdr) (dropped : (seqCheck seqNo hdr).2 = false) :
    hdr.iframe ≠ 1 ∧ hdr.seqno ≠ seqNo ∧ (seqCheck seqNo hdr).1 = seqNo + 1 := by
  unfold seqCheck at dropped ⊢
  by_cases differs : seqNo ≠ hdr.seqno
  · by_cases intra : hdr.iframe = 1
    · simp [differs, intra] at dropped
    · simp only [if_pos differs, if_neg intra]
      exact ⟨intra, fun same => differs same.symm, trivial⟩
  · simp [differs] at dropped

/-- A quiet piece of the run: `state` does not change and nothing is delivered. -/
theorem TracedRun.idle (front rest : List NetEvent) (state : RecvState)
    (current : Option NetHdr) (none : carried front = []) (pending : Pending state current) :
    TracedRun (front ++ rest) state current [] state rest :=
  ⟨front, current, rfl, by rw [none]; exact .nil _ _, pending⟩

theorem payload_positive {datagram : List Byte} (wf : WellFormed datagram)
    (carries : (netHdrAt datagram).len ≠ 0) : 0 < (payloadOf datagram).length := by
  have len := wf.len
  have header := wf.header
  simp only [payloadOf, List.length_drop]
  omega

theorem carried_datagram (datagram : List Byte) (rest : List NetEvent)
    (carries : (netHdrAt datagram).len ≠ 0) :
    carried (.datagram datagram :: rest) = netHdrAt datagram :: carried rest := by
  simp [carried, arrivals, carries]

theorem arrivals_other {event : NetEvent} (other : ∀ bytes, event ≠ .datagram bytes)
    (rest : List NetEvent) : arrivals (event :: rest) = arrivals rest := by
  cases event with
  | datagram bytes => exact absurd rfl (other bytes)
  | selectFails => rfl
  | recvFails => rfl
  | timeout => rfl

theorem carried_other {event : NetEvent} (other : ∀ bytes, event ≠ .datagram bytes)
    (rest : List NetEvent) : carried (event :: rest) = carried rest := by
  rw [carried, carried, arrivals_other other]

theorem TracedRun.datagram {bytes : List Byte} {later rest : List NetEvent}
    {state middle next : RecvState} {current after : Option NetHdr} {front obs : List RecvObs}
    (carries : (netHdrAt bytes).len ≠ 0)
    (first : Traced current state.seqNo [netHdrAt bytes] front after middle.seqNo)
    (run : TracedRun later middle after obs next rest) :
    TracedRun (.datagram bytes :: later) state current (front ++ obs) next rest := by
  obtain ⟨used, current', rfl, traced, pending⟩ := run
  refine ⟨.datagram bytes :: used, current', rfl, ?_, pending⟩
  rw [carried_datagram bytes used carries]
  exact first.append traced

/-- A datagram of which a part is kept: the loop is done, the rest is pending. -/
theorem recvLoop_traced_part (complete : Bool) (n : Int) (later : List NetEvent)
    (state : RecvState) (nleft ntotal : Int) (current : Option NetHdr) (bytes : List Byte)
    (wf : WellFormed bytes) (wanted : 0 < nleft) (carries : (netHdrAt bytes).len ≠ 0)
    (check : (seqCheck state.seqNo (netHdrAt bytes)).2 = true)
    (longer : ((payloadOf bytes).length : Int) > nleft)
    (ret : Int) (obs : List RecvObs) (next : RecvState) (rest : List NetEvent)
    (returned : recvLoop complete n (.datagram bytes :: later) state nleft ntotal =
      .returned ret obs next rest) :
    TracedRun (.datagram bytes :: later) state current obs next rest := by
  obtain ⟨kept, advance⟩ := seqCheck_kept _ _ check
  rw [recvLoop_keeps_part complete n later state nleft ntotal bytes wf wanted carries check longer,
    recvLoop_done _ _ _ _ _ _ (Int.le_refl 0)] at returned
  obtain ⟨_, rfl, rfl, rfl⟩ := Recv.returned.inj returned
  refine TracedRun.datagram carries
    (.keep _ _ kept ?_ ?_) (.idle [] later _ (some (netHdrAt bytes)) rfl (.inr (.inr ⟨?_, ?_⟩)))
  · intro none
    have lengths := congrArg List.length none
    simp only [List.length_take, List.length_nil] at lengths
    omega
  · simp only [advance]
    exact .nil _ _
  · simp only
    omega
  · simp only [receivedBuf, netHdrAt_append bytes _ wf.header]

theorem recvLoop_traced (complete : Bool) (n : Int) (events : List NetEvent)
    (state : RecvState) (nleft ntotal : Int) (current : Option NetHdr)
    (wf : ∀ datagram ∈ arrivals events, WellFormed datagram) (idle : state.nlen = 0)
    (ret : Int) (obs : List RecvObs) (next : RecvState) (rest : List NetEvent)
    (returned : recvLoop complete n events state nleft ntotal = .returned ret obs next rest) :
    TracedRun events state current obs next rest := by
  induction events generalizing state nleft ntotal current obs with
  | nil =>
      simp only [recvLoop] at returned
      split at returned
      · obtain ⟨_, rfl, rfl, rfl⟩ := Recv.returned.inj returned
        exact .idle [] [] state current rfl (.inr (.inl idle))
      · cases returned
  | cons event later ih =>
      have pending : Pending state current := .inr (.inl idle)
      by_cases done : nleft ≤ 0
      · rw [recvLoop_done _ _ _ _ _ _ done] at returned
        obtain ⟨_, rfl, rfl, rfl⟩ := Recv.returned.inj returned
        exact .idle [] _ state current rfl pending
      by_cases other : ∀ bytes, event ≠ .datagram bytes
      · rcases recvLoop_other complete n event state nleft ntotal done other with
          waits | ⟨value, stops⟩
        · rw [waits] at returned
          rw [arrivals_other other] at wf
          obtain ⟨used, current', rfl, traced, pending'⟩ :=
            ih state nleft ntotal current wf idle obs returned
          refine ⟨event :: used, current', rfl, ?_, pending'⟩
          rwa [carried_other other]
        · rw [stops] at returned
          obtain ⟨_, rfl, rfl, rfl⟩ := Recv.returned.inj returned
          exact .idle [event] _ state current (carried_other other []) pending
      obtain ⟨bytes, rfl⟩ := not_forall_not.mp other
      have wfHead : WellFormed bytes := wf bytes (by simp [arrivals])
      have wfLater : ∀ datagram ∈ arrivals later, WellFormed datagram :=
        fun one member => wf one (by simp [arrivals, member])
      have wanted : 0 < nleft := by omega
      by_cases ends : (netHdrAt bytes).len = 0
      · rw [recvLoop_ends complete n later state nleft ntotal bytes wfHead wanted ends]
          at returned
        obtain ⟨_, rfl, rfl, rfl⟩ := Recv.returned.inj returned
        refine ⟨[.datagram bytes], current, rfl, ?_, .inl rfl⟩
        rw [show carried [.datagram bytes] = [] by simp [carried, arrivals, ends]]
        exact .nil _ _
      have positive := payload_positive wfHead ends
      cases check : (seqCheck state.seqNo (netHdrAt bytes)).2 with
      | false =>
          obtain ⟨inter, out, advance⟩ := seqCheck_dropped _ _ check
          rw [recvLoop_discards complete n later state nleft ntotal bytes wfHead wanted ends
            check] at returned
          obtain ⟨obs', returned', rfl⟩ := Recv.prepend_returned returned
          refine .datagram ends (.discard _ inter out ?_)
            (ih _ nleft ntotal none wfLater (by exact idle) obs' returned')
          simp only [advance]
          exact .nil _ _
      | true =>
          obtain ⟨kept, advance⟩ := seqCheck_kept _ _ check
          by_cases longer : ((payloadOf bytes).length : Int) > nleft
          · exact recvLoop_traced_part complete n later state nleft ntotal current bytes wfHead
              wanted ends check longer ret obs next rest returned
          · rw [recvLoop_keeps_whole complete n later state nleft ntotal bytes wfHead wanted
              ends check (by omega)] at returned
            obtain ⟨obs', returned', rfl⟩ := Recv.prepend_returned returned
            refine .datagram ends (.keep _ _ kept (List.length_pos_iff.mp positive) ?_)
              (ih _ _ _ (some (netHdrAt bytes)) wfLater (by exact idle) obs' returned')
            simp only [advance]
            exact .nil _ _

theorem udpRecv_traced (complete : Bool) (n : Int) (events : List NetEvent)
    (state : RecvState) (current : Option NetHdr)
    (wf : ∀ datagram ∈ arrivals events, WellFormed datagram) (pending : Pending state current)
    (ret : Int) (obs : List RecvObs) (next : RecvState) (rest : List NetEvent)
    (returned : udpRecv complete n events state = .returned ret obs next rest) :
    TracedRun events state current obs next rest := by
  unfold udpRecv at returned
  rcases pending with ended | idle | ⟨positive, rfl⟩
  · simp only [ended, ne_eq, show ¬ ((-1 : Int) = 0) by omega, not_false_eq_true, if_true,
      Recv.returned.injEq] at returned
    obtain ⟨_, rfl, rfl, rfl⟩ := returned
    exact .idle [] events state current rfl (.inl ended)
  · rw [if_neg (by simp [idle])] at returned
    exact recvLoop_traced complete n events state n 0 current wf idle ret obs next rest returned
  · rw [if_pos (by omega), if_neg (by omega)] at returned
    by_cases longer : state.nlen > n
    · rw [if_pos longer] at returned
      split at returned
      · cases returned
      · obtain ⟨_, rfl, rfl, rfl⟩ := Recv.returned.inj returned
        refine ⟨[], some (netHdrAt state.nbuf), rfl, .more _ _ (.nil _ _), .inr (.inr ⟨?_, rfl⟩)⟩
        simp only
        omega
    · rw [if_neg longer] at returned
      split at returned
      · cases returned
      · obtain ⟨later, returned', rfl⟩ := Recv.prepend_returned returned
        obtain ⟨used, current', rfl, traced, pending'⟩ :=
          recvLoop_traced complete n events { state with nlen := 0 } (n - state.nlen) state.nlen
            (some (netHdrAt state.nbuf)) wf rfl ret later next rest returned'
        exact ⟨used, current', rfl, .more _ _ traced, pending'⟩

theorem recvCalls_traced (calls : List Call) (events : List NetEvent) (state : RecvState)
    (current : Option NetHdr) (wf : ∀ datagram ∈ arrivals events, WellFormed datagram)
    (pending : Pending state current) (results : List CallResult) (final : RecvState)
    (rest : List NetEvent) (run : recvCalls calls events state = some (results, final, rest)) :
    TracedRun events state current (results.flatMap CallResult.obs) final rest := by
  induction calls generalizing events state current results with
  | nil =>
      simp only [recvCalls, Option.some.injEq, Prod.mk.injEq] at run
      obtain ⟨rfl, rfl, rfl⟩ := run
      exact .idle [] events state current rfl pending
  | cons call calls ih =>
      simp only [recvCalls] at run
      split at run
      · rename_i ret obs next later returned
        simp only [Option.bind_eq_bind, Option.bind_eq_some_iff, Option.some.injEq,
          Prod.mk.injEq] at run
        obtain ⟨⟨others, _⟩, run', rfl, rfl⟩ := run
        obtain ⟨used, middle, rfl, traced, pending'⟩ :=
          udpRecv_traced call.complete call.n events state current wf pending ret obs next later
            returned
        have wfLater : ∀ datagram ∈ arrivals later, WellFormed datagram :=
          fun one member => wf one (by simp [arrivals_append, member])
        obtain ⟨used', current', rfl, traced', pending''⟩ :=
          ih later next middle wfLater pending' others run'
        refine ⟨used ++ used', current', by simp, ?_, pending''⟩
        rw [carried_append, List.flatMap_cons]
        exact traced.append traced'
      · cases run
      · cases run

/-! ## After a gap -/

def RecvObs.isDiscarded : RecvObs → Bool
  | .discarded _ => true
  | .first _ _ => false
  | .more _ _ => false

/-- The caller is handed payload bytes of a datagram whose header passes `test`. -/
def RecvObs.delivers (test : NetHdr → Bool) : RecvObs → Bool
  | .discarded _ => false
  | .first hdr bytes => bytes ≠ [] && test hdr
  | .more hdr bytes => bytes ≠ [] && test hdr

def NetHdr.isIFrame (hdr : NetHdr) : Bool := hdr.iframe = 1

/-- Once a datagram has been discarded, no payload byte of a datagram other than
an I frame is delivered until an I frame has been. -/
def ResumesAtIFrame (obs : List RecvObs) : Prop :=
  NoneUntil (fun one => RecvObs.isDiscarded one = true)
    (fun one => RecvObs.delivers NetHdr.isIFrame one = true)
    (fun one => RecvObs.delivers (fun hdr => !NetHdr.isIFrame hdr) one = true) obs

/-- Each arrival with the number of its place: one more than the number of the
last I frame (or `place`, before the first), plus the arrivals in between. -/
def placed (place : Int) : List NetHdr → List (Int × NetHdr)
  | [] => []
  | hdr :: rest =>
      (place, hdr) :: placed (if hdr.iframe = 1 then hdr.seqno + 1 else place + 1) rest

/-- Between two I frames, no arrival that bears the number of its place comes
after one that does not. -/
def NoFalseSync (hdrs : List NetHdr) : Prop :=
  NoneUntil (fun arrival => arrival.2.iframe ≠ 1 ∧ arrival.2.seqno ≠ arrival.1)
    (fun arrival => arrival.2.iframe = 1)
    (fun arrival => arrival.2.iframe ≠ 1 ∧ arrival.2.seqno = arrival.1) (placed 0 hdrs)

/-- What is delivered and what arrived are watched in step.  A `more` entry
belongs to the datagram kept last, so the watch is never armed there. -/
theorem Traced.watch_iff {current current' : Option NetHdr} {seqNo seqNo' : Int}
    {hdrs : List NetHdr} {obs : List RecvObs}
    (traced : Traced current seqNo hdrs obs current' seqNo') (armed : Bool)
    (fresh : current ≠ none → armed = false) :
    watch (fun one => RecvObs.isDiscarded one = true)
        (fun one => RecvObs.delivers NetHdr.isIFrame one = true)
        (fun one => RecvObs.delivers (fun hdr => !NetHdr.isIFrame hdr) one = true) armed obs ↔
      watch (fun arrival : Int × NetHdr => arrival.2.iframe ≠ 1 ∧ arrival.2.seqno ≠ arrival.1)
        (fun arrival => arrival.2.iframe = 1)
        (fun arrival => arrival.2.iframe ≠ 1 ∧ arrival.2.seqno = arrival.1) armed
        (placed seqNo hdrs) := by
  induction traced generalizing armed with
  | nil => simp [watch, placed]
  | discard hdr inter out _ ih =>
      simp only [watch, placed, RecvObs.isDiscarded, RecvObs.delivers, if_true, inter, out,
        ne_eq, not_false_eq_true, and_self, if_false, Bool.false_eq_true, and_false,
        implies_true, true_and]
      exact ih true (fun some => absurd rfl some)
  | keep hdr bytes kept nonempty _ ih =>
      by_cases intra : hdr.iframe = 1
      · simp only [watch, placed, RecvObs.isDiscarded, RecvObs.delivers, NetHdr.isIFrame, intra,
          nonempty, if_true, ne_eq, not_true_eq_false, false_and, not_false_eq_true,
          Bool.false_eq_true, if_false, decide_true, Bool.and_self, Bool.not_true,
          Bool.and_false, implies_true, true_and]
        exact ih false (fun _ => rfl)
      · have inPlace : hdr.seqno = _ := kept.resolve_left intra
        cases armed with
        | true =>
            simp [watch, placed, RecvObs.delivers, NetHdr.isIFrame, intra, nonempty, inPlace]
        | false =>
            simp only [watch, placed, RecvObs.isDiscarded, RecvObs.delivers, NetHdr.isIFrame,
              intra, nonempty, ne_eq, not_false_eq_true, inPlace, not_true_eq_false, and_false,
              Bool.false_eq_true, if_false, decide_false, decide_true, Bool.and_false,
              false_implies, true_and]
            have later := ih false (fun _ => rfl)
            rwa [inPlace] at later
  | more hdr bytes _ ih =>
      obtain rfl := fresh (by simp)
      simp only [watch, RecvObs.isDiscarded, Bool.false_eq_true, if_false, false_implies,
        true_and, ite_self]
      exact ih false (fun _ => rfl)

/-- A run resumes only at I frames exactly when no arrival takes the place that
the count of the discarded ones has come to. -/
theorem udpRecv_resumes_iff (calls : List Call) (events : List NetEvent) (nbuf : List Byte)
    (noffset : Int) (results : List CallResult) (final : RecvState) (rest : List NetEvent)
    (wf : ∀ datagram ∈ arrivals events, WellFormed datagram)
    (run : recvCalls calls events (RecvState.initial nbuf noffset) = some (results, final, rest)) :
    ∃ used, events = used ++ rest ∧
      (ResumesAtIFrame (results.flatMap CallResult.obs) ↔ NoFalseSync (carried used)) := by
  obtain ⟨used, current, splits, traced, _⟩ :=
    recvCalls_traced calls events _ none wf (.inr (.inl rfl)) results final rest run
  refine ⟨used, splits, ?_⟩
  rw [ResumesAtIFrame, NoFalseSync, noneUntil_iff_watch, noneUntil_iff_watch]
  exact traced.watch_iff false (fun _ => rfl)

/-- One read of one byte while the second datagram of a sender arrives twice and
the first one never does. -/
theorem recvCalls_lost_repeated (nbuf : List Byte) (noffset : Int) :
    ∃ results final,
      recvCalls [⟨1, false⟩] [.datagram (wireDatagram 1 ⟨0, [2]⟩),
        .datagram (wireDatagram 1 ⟨0, [2]⟩)] (RecvState.initial nbuf noffset) =
          some (results, final, []) ∧
      results.flatMap CallResult.obs = [.discarded ⟨1, 0, 1⟩, .first ⟨1, 0, 1⟩ [2]] := by
  have ok : (⟨0, [2]⟩ : Sent).Ok := ⟨by decide, by decide, by decide⟩
  have wf := wireDatagram_wellFormed 1 ⟨0, [2]⟩ ok (by decide) (by decide)
  have hdrAt : netHdrAt (wireDatagram 1 ⟨0, [2]⟩) = ⟨1, 0, 1⟩ :=
    netHdrAt_wireDatagram 1 ⟨0, [2]⟩ ok (by decide) (by decide)
  have carries : (netHdrAt (wireDatagram 1 ⟨0, [2]⟩)).len ≠ 0 := by rw [hdrAt]; decide
  have call : ∃ final, udpRecv false 1 [.datagram (wireDatagram 1 ⟨0, [2]⟩),
      .datagram (wireDatagram 1 ⟨0, [2]⟩)] (RecvState.initial nbuf noffset) =
        .returned 1 [.discarded ⟨1, 0, 1⟩, .first ⟨1, 0, 1⟩ [2]] final [] := by
    apply Exists.intro
    simp only [udpRecv, RecvState.initial, ne_eq, not_true_eq_false, if_false]
    rw [recvLoop_discards false 1 _ _ 1 0 _ wf (by decide) carries (by rw [hdrAt]; rfl),
      recvLoop_keeps_whole false 1 _ _ 1 0 _ wf (by decide) carries (by rw [hdrAt]; rfl)
        (by rw [payloadOf_wireDatagram]; decide)]
    simp only [payloadOf_wireDatagram, hdrAt, List.length_singleton]
    rw [recvLoop_done _ _ _ _ _ _ (by decide)]
    rfl
  obtain ⟨final, call⟩ := call
  exact ⟨[⟨1, 1, _⟩], final, by simp only [recvCalls, call]; rfl, rfl⟩

theorem udpRecv_resumes_iff_lost_repeated :
    ∃ results final used,
      recvCalls [⟨1, false⟩] [.datagram (wireDatagram 1 ⟨0, [2]⟩),
        .datagram (wireDatagram 1 ⟨0, [2]⟩)]
          (RecvState.initial (List.replicate defaultPktSize 0) 0) = some (results, final, []) ∧
      [.datagram (wireDatagram 1 ⟨0, [2]⟩), .datagram (wireDatagram 1 ⟨0, [2]⟩)] = used ++ [] ∧
      (ResumesAtIFrame (results.flatMap CallResult.obs) ↔ NoFalseSync (carried used)) := by
  obtain ⟨results, final, run, _⟩ :=
    recvCalls_lost_repeated (List.replicate defaultPktSize 0) 0
  have wf := wireDatagram_wellFormed 1 ⟨0, [2]⟩ ⟨by decide, by decide, by decide⟩
    (by decide) (by decide)
  obtain ⟨used, splits, exactly⟩ := udpRecv_resumes_iff _ _ _ _ results final [] (by
    intro datagram member
    simp only [arrivals, List.mem_cons, List.not_mem_nil, or_false, or_self] at member
    rw [member]
    exact wf) run
  exact ⟨results, final, used, run, splits, exactly⟩

/-- The count catches up with a repeated datagram: its second copy is delivered
although no I frame has arrived. -/
theorem udpRecv_resumes_without_iframe :
    wireDatagram 1 ⟨0, [2]⟩ ∈ wire 0 [⟨0, [1]⟩, ⟨0, [2]⟩] ∧
    ∃ results final,
      recvCalls [⟨1, false⟩] [.datagram (wireDatagram 1 ⟨0, [2]⟩),
        .datagram (wireDatagram 1 ⟨0, [2]⟩)]
          (RecvState.initial (List.replicate defaultPktSize 0) 0) = some (results, final, []) ∧
      ¬ ResumesAtIFrame (results.flatMap CallResult.obs) := by
  refine ⟨by simp [wire], ?_⟩
  obtain ⟨results, final, run, obs⟩ :=
    recvCalls_lost_repeated (List.replicate defaultPktSize 0) 0
  refine ⟨results, final, run, ?_⟩
  rw [obs]
  intro resumes
  obtain ⟨closing, member, _⟩ :=
    resumes [] (.discarded ⟨1, 0, 1⟩) [] (.first ⟨1, 0, 1⟩ [2]) [] rfl rfl rfl
  simp at member

/-! ## The order of what is delivered -/

/-- The headers of the datagrams whose payload is delivered, in order. -/
def firsts : List RecvObs → List NetHdr
  | [] => []
  | .first hdr _ :: rest => hdr :: firsts rest
  | .discarded _ :: rest => firsts rest
  | .more _ _ :: rest => firsts rest

/-- The sequence numbers increase, except that an I frame may restart them. -/
def IncreasesBetweenIFrames (hdrs : List NetHdr) : Prop :=
  ∀ before earlier between later after,
    hdrs = before ++ earlier :: (between ++ later :: after) →
    (∀ hdr ∈ between, hdr.iframe ≠ 1) → later.iframe ≠ 1 → earlier.seqno < later.seqno

/-- Every datagram kept is followed by a larger expected number, which only an I
frame can lower. -/
theorem Traced.later_seqno {current current' : Option NetHdr} {seqNo seqNo' : Int}
    {hdrs : List NetHdr} {obs : List RecvObs}
    (traced : Traced current seqNo hdrs obs current' seqNo') (between after : List NetHdr)
    (later : NetHdr) (split : firsts obs = between ++ later :: after)
    (inter : ∀ hdr ∈ between, hdr.iframe ≠ 1) (laterInter : later.iframe ≠ 1) :
    seqNo ≤ later.seqno := by
  induction traced generalizing between with
  | nil => simp [firsts] at split
  | discard hdr _ _ _ ih =>
      have bound := ih between split inter
      omega
  | keep hdr bytes kept _ _ ih =>
      rw [firsts] at split
      cases between with
      | nil =>
          obtain ⟨rfl, _⟩ := List.cons.inj split
          have same := kept.resolve_left laterInter
          omega
      | cons first between =>
          obtain ⟨rfl, tail⟩ := List.cons.inj split
          have same := kept.resolve_left (inter hdr (by simp))
          have bound := ih between tail (fun one member => inter one (by simp [member]))
          omega
  | more hdr bytes _ ih => exact ih between split inter

theorem Traced.increases {current current' : Option NetHdr} {seqNo seqNo' : Int}
    {hdrs : List NetHdr} {obs : List RecvObs}
    (traced : Traced current seqNo hdrs obs current' seqNo') :
    IncreasesBetweenIFrames (firsts obs) := by
  induction traced with
  | nil =>
      intro before earlier between later after split
      simp [firsts] at split
  | discard hdr _ _ _ ih => exact ih
  | keep hdr bytes _ _ rest ih =>
      intro before earlier between later after split inter laterInter
      rw [firsts] at split
      cases before with
      | nil =>
          obtain ⟨rfl, tail⟩ := List.cons.inj split
          have bound := rest.later_seqno between after later tail inter laterInter
          omega
      | cons first before =>
          obtain ⟨_, tail⟩ := List.cons.inj split
          exact ih before earlier between later after tail inter laterInter
  | more hdr bytes _ ih => exact ih

/-- Whatever the network does with the sender's datagrams, those delivered since
the last I frame come in the order of their numbers and each at most once. -/
theorem udpRecv_increases_between_iframes (sent : List Sent) (ok : ∀ one ∈ sent, one.Ok)
    (count : sent.length < 2 ^ 31) (calls : List Call) (events : List NetEvent)
    (nbuf : List Byte) (noffset : Int) (results : List CallResult) (final : RecvState)
    (rest : List NetEvent)
    (fromSender : ∀ datagram ∈ arrivals events, datagram ∈ wire 0 sent ∨
      ∃ stale, InInt stale ∧ datagram = netHdrBytes ⟨-1, stale, 0⟩)
    (run : recvCalls calls events (RecvState.initial nbuf noffset) = some (results, final, rest)) :
    IncreasesBetweenIFrames (firsts (results.flatMap CallResult.obs)) := by
  have wf : ∀ datagram ∈ arrivals events, WellFormed datagram := by
    intro datagram member
    rcases fromSender datagram member with data | ⟨stale, fits, rfl⟩
    · obtain ⟨seqNo, one, low, high, isSent, rfl⟩ := mem_wire data
      exact wireDatagram_wellFormed seqNo one (ok one isSent) low (by omega)
    · exact netHdrBytes_wellFormed _ (endHdr_fits stale fits) rfl
  obtain ⟨used, current, _, traced, _⟩ :=
    recvCalls_traced calls events _ none wf (.inr (.inl rfl)) results final rest run
  exact traced.increases

/-- One read of two bytes while an I frame arrives twice. -/
theorem recvCalls_iframe_repeated (nbuf : List Byte) (noffset : Int) :
    ∃ results final,
      recvCalls [⟨2, true⟩] [.datagram (wireDatagram 0 ⟨1, [5]⟩),
        .datagram (wireDatagram 0 ⟨1, [5]⟩)] (RecvState.initial nbuf noffset) =
          some (results, final, []) ∧
      results.flatMap CallResult.obs = [.first ⟨0, 1, 1⟩ [5], .first ⟨0, 1, 1⟩ [5]] := by
  have ok : (⟨1, [5]⟩ : Sent).Ok := ⟨by decide, by decide, by decide⟩
  have wf := wireDatagram_wellFormed 0 ⟨1, [5]⟩ ok (by decide) (by decide)
  have hdrAt : netHdrAt (wireDatagram 0 ⟨1, [5]⟩) = ⟨0, 1, 1⟩ :=
    netHdrAt_wireDatagram 0 ⟨1, [5]⟩ ok (by decide) (by decide)
  have carries : (netHdrAt (wireDatagram 0 ⟨1, [5]⟩)).len ≠ 0 := by rw [hdrAt]; decide
  have short : ((payloadOf (wireDatagram 0 ⟨1, [5]⟩)).length : Int) = 1 := by
    rw [payloadOf_wireDatagram]
    rfl
  have call : ∃ final, udpRecv true 2 [.datagram (wireDatagram 0 ⟨1, [5]⟩),
      .datagram (wireDatagram 0 ⟨1, [5]⟩)] (RecvState.initial nbuf noffset) =
        .returned 2 [.first ⟨0, 1, 1⟩ [5], .first ⟨0, 1, 1⟩ [5]] final [] := by
    apply Exists.intro
    simp only [udpRecv, RecvState.initial, ne_eq, not_true_eq_false, if_false]
    rw [recvLoop_keeps_whole true 2 _ _ 2 0 _ wf (by decide) carries (by rw [hdrAt]; rfl)
        (by omega),
      recvLoop_keeps_whole true 2 _ _ _ _ _ wf (by omega) carries (by rw [hdrAt]; rfl)
        (by omega),
      recvLoop_done _ _ _ _ _ _ (by omega), payloadOf_wireDatagram, hdrAt]
    rfl
  obtain ⟨final, call⟩ := call
  exact ⟨[⟨2, 2, _⟩], final, by simp only [recvCalls, call]; rfl, rfl⟩

theorem udpRecv_increases_between_iframes_repeated :
    ∃ results final,
      recvCalls [⟨2, true⟩] [.datagram (wireDatagram 0 ⟨1, [5]⟩),
        .datagram (wireDatagram 0 ⟨1, [5]⟩)]
          (RecvState.initial (List.replicate defaultPktSize 0) 0) = some (results, final, []) ∧
      IncreasesBetweenIFrames (firsts (results.flatMap CallResult.obs)) := by
  obtain ⟨results, final, run, _⟩ :=
    recvCalls_iframe_repeated (List.replicate defaultPktSize 0) 0
  refine ⟨results, final, run, udpRecv_increases_between_iframes [⟨1, [5]⟩] ?_ (by decide) _ _ _ _
    results final [] ?_ run⟩
  · intro one member
    obtain rfl := List.mem_singleton.mp member
    exact ⟨by decide, by decide, by decide⟩
  · intro datagram member
    simp only [arrivals, List.mem_cons, List.not_mem_nil, or_false, or_self] at member
    exact .inl (by simp [member, wire])

/-- An I frame that the network repeats is delivered twice. -/
theorem udpRecv_delivers_iframe_twice :
    wire 0 [⟨1, [5]⟩] = [wireDatagram 0 ⟨1, [5]⟩] ∧
    ∃ results final,
      recvCalls [⟨2, true⟩] [.datagram (wireDatagram 0 ⟨1, [5]⟩),
        .datagram (wireDatagram 0 ⟨1, [5]⟩)]
          (RecvState.initial (List.replicate defaultPktSize 0) 0) = some (results, final, []) ∧
      ¬ ((firsts (results.flatMap CallResult.obs)).map NetHdr.seqno).Pairwise (· < ·) := by
  obtain ⟨results, final, run, obs⟩ :=
    recvCalls_iframe_repeated (List.replicate defaultPktSize 0) 0
  refine ⟨rfl, results, final, run, ?_⟩
  rw [obs]
  decide

end ImxTest.Vpu.UdpGap
