import ImxTest.Vpu.DecoderDisplay

/-!
# The G2D display: `android_put_data`, `android_get_buf` and the display thread

The decoder appends a rotated picture to `display_q`; the thread takes it from
there, blits it and appends it to `released_q`.  The loop around is that of
`decoder_start` with post-processing.  A step is one access to shared data, and
`quitflag` stays unset.

The decoder may go on while its credits last.  With more than one credit it can
take a released buffer first and count up later, and the buffer it then counts to
may still wait for display.
-/

set_option autoImplicit false

namespace ImxTest.Vpu.AndroidDisplay

open ImxTest.Lib.Run
open ImxTest.Vpu.Ownership
open ImxTest.Vpu.DisplayTurn
open ImxTest.Vpu.V4lDisplay (Decode Client Output)
open ImxTest.Vpu.DisplayClient
open ImxTest.Vpu.DecoderDisplay

inductive DecoderPc where
  | decode
  | putPost
  | getWait
  | getTest
  | getDequeue
  | getCount (index : Int)
  | recycle (index : Int)
  deriving DecidableEq, Repr

inductive ThreadPc where
  | wait
  | dequeue
  | blit (index : Int)
  | count
  | post
  | finished
  deriving DecidableEq, Repr

/-- `struct vpu_display` with the decoder and the display thread around it. -/
structure Sys where
  displayQ : BufQueue
  releasedQ : BufQueue
  dequeuedCount : Int
  avaiableDecodingFrame : Nat
  avaiableDequeueFrame : Nat
  pc : DecoderPc
  thread : ThreadPc
  regs : Regs
  log : List Op

inductive Act where
  | output (output : Output)
  | decoder
  | display
  deriving DecidableEq, Repr

/-- After `android_display_open`, whatever the cells of the two queues hold. -/
def Sys.start (dec : Decode) (displayList releasedList : Nat → Int) : Sys where
  displayQ := .empty displayList
  releasedQ := .empty releasedList
  dequeuedCount := 0
  avaiableDecodingFrame := dec.regfbcount - dec.minfbcount
  avaiableDequeueFrame := 0
  pc := .decode
  thread := .wait
  regs := (decoderStart dec).start
  log := []

/-- One frame is decoded; if it is shown, `android_put_data` queues its buffer. -/
def outputStep (dec : Decode) (sys : Sys) (output : Output) : Option Sys :=
  if sys.pc = .decode ∧ (decoderStart dec).allows sys.log output = true then
    let (ops, regs, shown) := (decoderStart dec).onOutput sys.regs output
    match shown with
    | none => some { sys with regs := regs, log := sys.log ++ ops }
    | some index =>
        some { sys with
          displayQ := (sys.displayQ.queueBuf index).1
          regs := regs
          log := sys.log ++ ops
          pc := .putPost }
  else none

/-- The decoder in `android_put_data`, in `android_get_buf`, and in the rest of its
loop. -/
def decoderStep (dec : Decode) (sys : Sys) : Option Sys :=
  match sys.pc with
  | .decode => none
  | .putPost =>
      some { sys with avaiableDequeueFrame := sys.avaiableDequeueFrame + 1, pc := .getWait }
  | .getWait =>
      if sys.avaiableDecodingFrame = 0 then none
      else
        some { sys with
          avaiableDecodingFrame := sys.avaiableDecodingFrame - 1
          pc := .getTest }
  | .getTest =>
      if sys.dequeuedCount > 0 then some { sys with pc := .getDequeue }
      else some { sys with pc := .recycle (-1) }
  | .getDequeue =>
      let (releasedQ, index) := sys.releasedQ.dequeueBuf
      some { sys with releasedQ := releasedQ, pc := .getCount index }
  | .getCount index =>
      some { sys with dequeuedCount := sys.dequeuedCount - 1, pc := .recycle index }
  | .recycle index =>
      let (ops, regs) := (decoderStart dec).recycle sys.regs index
      some { sys with regs := regs, log := sys.log ++ ops, pc := .decode }

def threadStep (sys : Sys) : Option Sys :=
  match sys.thread with
  | .wait =>
      if sys.avaiableDequeueFrame = 0 then none
      else
        some { sys with
          avaiableDequeueFrame := sys.avaiableDequeueFrame - 1
          thread := .dequeue }
  | .dequeue =>
      let (displayQ, index) := sys.displayQ.dequeueBuf
      some { sys with
        displayQ := displayQ
        thread := if index < 0 then .finished else .blit index }
  | .blit index =>
      some { sys with releasedQ := (sys.releasedQ.queueBuf index).1, thread := .count }
  | .count => some { sys with dequeuedCount := sys.dequeuedCount + 1, thread := .post }
  | .post =>
      some { sys with
        avaiableDecodingFrame := sys.avaiableDecodingFrame + 1
        thread := .wait }
  | .finished => none

def sysStep (dec : Decode) (sys : Sys) : Act → Option Sys
  | .output output => outputStep dec sys output
  | .decoder => decoderStep dec sys
  | .display => threadStep sys

def ThreadPc.blitting : ThreadPc → List Int
  | .blit index => [index]
  | _ => []

/-- The target is not waiting for display and not on the screen, and nothing waits
twice. -/
structure Safe (sys : Sys) : Prop where
  target : sys.pc = .decode →
    sys.regs.rotid ∉ sys.displayQ.contents ∧ sys.regs.rotid ∉ sys.thread.blitting
  nodup : sys.displayQ.contents.Nodup

/-- All the buffers between `android_put_data` and `android_get_buf`, oldest first. -/
def Sys.flight (sys : Sys) : List Int :=
  sys.releasedQ.contents ++ sys.thread.blitting ++ sys.displayQ.contents

/-! ## The counters -/

/-- Released and not yet counted in `dequeued_count`. -/
def ThreadPc.uncounted : ThreadPc → Nat
  | .count => 1
  | _ => 0

/-- Released and not yet posted to `avaiable_decoding_frame`. -/
def ThreadPc.unposted : ThreadPc → Nat
  | .count => 1
  | .post => 1
  | _ => 0

def ThreadPc.taken : ThreadPc → Nat
  | .dequeue => 1
  | _ => 0

/-- Queued for display, and the credit not yet taken. -/
def DecoderPc.unpaid : DecoderPc → Nat
  | .putPost => 1
  | .getWait => 1
  | _ => 0

def DecoderPc.unposted : DecoderPc → Nat
  | .putPost => 1
  | _ => 0

def DecoderPc.uncounted : DecoderPc → Nat
  | .getCount _ => 1
  | _ => 0

/-- What the two semaphores and `dequeued_count` have to do with the queues. -/
structure Counts (kept : Nat) (sys : Sys) : Prop where
  dequeued : sys.dequeuedCount + sys.thread.uncounted =
    sys.releasedQ.contents.length + sys.pc.uncounted
  credits : sys.avaiableDecodingFrame + sys.thread.blitting.length +
    sys.displayQ.contents.length + sys.thread.unposted = kept + sys.pc.unpaid
  frames : sys.avaiableDequeueFrame + sys.thread.taken + sys.pc.unposted =
    sys.displayQ.contents.length

/-! ## One credit: two buffers take turns -/

def Pair (first one other : Int) : Prop :=
  (one = first ∧ other = first + 1) ∨ (one = first + 1 ∧ other = first)

/-- What is on its way at each place of the decoder. -/
def Phase (first : Int) (flight : List Int) (rotid : Int) : DecoderPc → Prop
  | .decode => (flight = [] ∧ rotid = first) ∨ ∃ one, flight = [one] ∧ Pair first one rotid
  | .getCount index => (index = first ∧ flight = [] ∧ rotid = first) ∨
      (flight = [rotid] ∧ Pair first index rotid)
  | .recycle index => (index = -1 ∧ flight = [first] ∧ rotid = first) ∨
      (index = first ∧ flight = [] ∧ rotid = first) ∨
      (flight = [rotid] ∧ Pair first index rotid)
  | _ => (flight = [first] ∧ rotid = first) ∨
      ∃ one, flight = [one, rotid] ∧ Pair first one rotid

structure Inv (dec : Decode) (sys : Sys) : Prop where
  counts : Counts 1 sys
  phase : Phase dec.regfbcount sys.flight sys.regs.rotid sys.pc
  ready : sys.pc = .getDequeue → sys.releasedQ.contents ≠ []

section OneCredit
variable {dec : Decode} {sys sys' : Sys}

theorem Phase.two {first rotid : Int} {flight : List Int} {pc : DecoderPc}
    (phase : Phase first flight rotid pc) :
    flight.Nodup ∧ flight.length ≤ 2 ∧ ∀ index ∈ flight, first ≤ index := by
  have pairs : ∀ one other, Pair first one other →
      one ≠ other ∧ first ≤ one ∧ first ≤ other := by
    intro one other pair
    rcases pair with ⟨rfl, rfl⟩ | ⟨rfl, rfl⟩ <;> omega
  have single : ∀ index, first ≤ index → [index].Nodup ∧ [index].length ≤ 2 ∧
      ∀ other ∈ [index], first ≤ other := by
    intro index behind
    refine ⟨List.nodup_singleton index, by simp, ?_⟩
    intro other mem
    rw [List.mem_singleton.mp mem]
    exact behind
  have double : ((flight = [first] ∧ rotid = first) ∨
      ∃ one, flight = [one, rotid] ∧ Pair first one rotid) →
      flight.Nodup ∧ flight.length ≤ 2 ∧ ∀ index ∈ flight, first ≤ index := by
    rintro (⟨rfl, _⟩ | ⟨one, rfl, pair⟩)
    · exact single first (Int.le_refl first)
    · obtain ⟨different, one', other'⟩ := pairs one rotid pair
      refine ⟨by simpa using different, by simp, ?_⟩
      intro index mem
      rcases List.mem_pair.mp mem with rfl | rfl
      · exact one'
      · exact other'
  cases pc with
  | decode =>
      rcases phase with ⟨rfl, _⟩ | ⟨one, rfl, pair⟩
      · simp
      · exact single one (pairs one rotid pair).2.1
  | getCount index =>
      rcases phase with ⟨_, rfl, _⟩ | ⟨rfl, pair⟩
      · simp
      · exact single rotid (pairs index rotid pair).2.2
  | recycle index =>
      rcases phase with ⟨_, rfl, _⟩ | ⟨_, rfl, _⟩ | ⟨rfl, pair⟩
      · exact single first (Int.le_refl first)
      · simp
      · exact single rotid (pairs index rotid pair).2.2
  | putPost => exact double phase
  | getWait => exact double phase
  | getTest => exact double phase
  | getDequeue => exact double phase

theorem Inv.safe (inv : Inv dec sys) : Safe sys := by
  obtain ⟨nodup, _, _⟩ := inv.phase.two
  constructor
  · intro decoding
    have away : sys.regs.rotid ∉ sys.flight := by
      have phase := inv.phase
      rw [decoding] at phase
      rcases phase with ⟨none, _⟩ | ⟨one, only, ⟨rfl, target⟩ | ⟨rfl, target⟩⟩
      · simp [none]
      · rw [only, target]
        simp
      · rw [only, target]
        simp
    constructor
    · intro mem
      exact away (List.mem_append_right _ mem)
    · intro mem
      exact away (List.mem_append_left _ (List.mem_append_right _ mem))
  · exact nodup.sublist (List.sublist_append_right _ _)

theorem inv_start (displayList releasedList : Nat → Int) (kept : dec.kept = 1)
    (rotated : dec.postProcessing = true) (flags : dec.mjpg = false) :
    Inv dec (.start dec displayList releasedList) := by
  refine ⟨⟨rfl, ?_, rfl⟩, .inl ⟨rfl, ?_⟩, fun dequeuing => by cases dequeuing⟩
  · exact kept
  · exact (decoderStart_rotating rotated flags).start.2

theorem inv_thread (inv : Inv dec sys) (step : threadStep sys = some sys') : Inv dec sys' := by
  obtain ⟨displayQ, releasedQ, dequeuedCount, decoding, dequeue, pc, thread, regs, log⟩ := sys
  obtain ⟨⟨dequeued, credits, frames⟩, phase, ready⟩ := inv
  obtain ⟨_, short, behind⟩ := phase.two
  simp only [Sys.flight, List.length_append] at dequeued credits frames phase ready short behind
  cases thread with
  | wait =>
      simp only [threadStep] at step
      split at step
      · cases step
      · obtain rfl := Option.some.inj step
        refine ⟨⟨dequeued, credits, ?_⟩, phase, ready⟩
        simp only [ThreadPc.taken] at frames ⊢
        omega
  | dequeue =>
      simp only [ThreadPc.taken] at frames
      obtain ⟨index, rest, holds⟩ : ∃ index rest, displayQ.contents = index :: rest := by
        cases contents : displayQ.contents with
        | nil =>
            rw [contents, List.length_nil] at frames
            omega
        | cons index rest => exact ⟨index, rest, rfl⟩
      obtain ⟨taken, left⟩ := BufQueue.dequeueBuf_contents displayQ index rest holds
      have notLast : ¬ index < 0 := by
        have := behind index (by simp [holds])
        omega
      simp only [threadStep, taken, if_neg notLast, Option.some.injEq] at step
      subst step
      rw [holds, List.length_cons] at credits frames
      simp only [ThreadPc.blitting, ThreadPc.unposted, List.length_nil] at credits
      refine ⟨⟨dequeued, ?_, ?_⟩, ?_, ready⟩
      · simp only [left, ThreadPc.blitting, ThreadPc.unposted, List.length_singleton]
        omega
      · simp only [left, ThreadPc.taken]
        omega
      · rw [holds] at phase
        simpa [Sys.flight, left, ThreadPc.blitting] using phase
  | blit index =>
      simp only [ThreadPc.blitting, List.length_singleton] at short credits
      have room : releasedQ.contents.length < maxBufNum := by
        unfold maxBufNum
        omega
      have released := (BufQueue.queueBuf_contents releasedQ index room).2
      simp only [threadStep, Option.some.injEq] at step
      subst step
      refine ⟨⟨?_, ?_, frames⟩, ?_, ?_⟩
      · simp only [released, ThreadPc.uncounted, List.length_append,
          List.length_singleton] at dequeued ⊢
        omega
      · simp only [ThreadPc.blitting, ThreadPc.unposted, List.length_nil] at credits ⊢
        omega
      · simpa [Sys.flight, released, ThreadPc.blitting] using phase
      · intro _
        simp [released]
  | count =>
      simp only [threadStep, Option.some.injEq] at step
      subst step
      refine ⟨⟨?_, credits, frames⟩, phase, ready⟩
      simp only [ThreadPc.uncounted] at dequeued ⊢
      omega
  | post =>
      simp only [threadStep, Option.some.injEq] at step
      subst step
      refine ⟨⟨dequeued, ?_, frames⟩, phase, ready⟩
      simp only [ThreadPc.blitting, ThreadPc.unposted] at credits ⊢
      omega
  | finished => cases step

theorem inv_output {output : Output} (rotated : dec.postProcessing = true)
    (flags : dec.mjpg = false) (inv : Inv dec sys) (step : outputStep dec sys output = some sys') :
    Inv dec sys' := by
  unfold outputStep at step
  split at step
  · rename_i enabled
    have decoding := enabled.1
    obtain ⟨same, shown⟩ := (decoderStart_rotating rotated flags).turn sys.regs output
    obtain ⟨⟨dequeued, credits, frames⟩, phase, _⟩ := inv
    obtain ⟨_, short, _⟩ := phase.two
    simp only [decoding] at dequeued credits frames phase
    rcases shown with shown | shown
    · simp only [shown, Option.some.injEq] at step
      subst step
      refine ⟨⟨?_, ?_, ?_⟩, ?_, ?_⟩
      · simpa only [decoding] using dequeued
      · simpa only [decoding] using credits
      · simpa only [decoding] using frames
      · simpa only [decoding, same, Sys.flight] using phase
      · simp [decoding]
    · simp only [shown, Option.some.injEq] at step
      subst step
      have room : sys.displayQ.contents.length < maxBufNum := by
        simp only [Sys.flight, List.length_append] at short
        unfold maxBufNum
        omega
      have queued := (BufQueue.queueBuf_contents sys.displayQ sys.regs.rotid room).2
      refine ⟨⟨dequeued, ?_, ?_⟩, ?_, ?_⟩
      · simp only [queued, DecoderPc.unpaid, List.length_append,
          List.length_singleton] at credits ⊢
        omega
      · simp only [queued, DecoderPc.unposted, List.length_append,
          List.length_singleton] at frames ⊢
        omega
      · have longer : Sys.flight
            { sys with
              displayQ := (sys.displayQ.queueBuf sys.regs.rotid).1
              regs := ((decoderStart dec).onOutput sys.regs output).2.1
              log := sys.log ++ ((decoderStart dec).onOutput sys.regs output).1
              pc := .putPost } = sys.flight ++ [sys.regs.rotid] := by
          simp [Sys.flight, queued]
        rw [longer]
        simp only [same]
        rcases phase with ⟨none, target⟩ | ⟨one, only, pair⟩
        · exact .inl ⟨by rw [none, target]; rfl, target⟩
        · exact .inr ⟨one, by rw [only]; rfl, pair⟩
      · intro dequeuing
        cases dequeuing
  · cases step

theorem decoderRecycle_rotid (rotated : dec.postProcessing = true) (flags : dec.mjpg = false)
    (regs : Regs) (index : Int) :
    (decoderRecycle dec regs index).2.rotid =
      if index ≠ -1 then index
      else (regs.rotid + 1 - dec.regfbcount).tmod ((dec.kept + 1 : Nat) : Int) +
        dec.regfbcount := by
  have extra : dec.extrafb = dec.kept + 1 := by
    simp [Decode.extrafb, rotated, Decode.rotBufCount, Decode.kept]
  simp only [decoderRecycle, rotated, flags, extra, Bool.false_eq_true, if_false, if_true]

/-- The next target is the buffer that is not on its way. -/
theorem Phase.recycle {flight : List Int} {regs : Regs} {index : Int} (kept : dec.kept = 1)
    (rotated : dec.postProcessing = true) (flags : dec.mjpg = false)
    (phase : Phase dec.regfbcount flight regs.rotid (.recycle index)) :
    Phase dec.regfbcount flight (decoderRecycle dec regs index).2.rotid .decode := by
  have next := decoderRecycle_rotid rotated flags regs index
  rw [kept] at next
  rw [next]
  rcases phase with ⟨rfl, one, target⟩ | ⟨rfl, none, target⟩ | ⟨one, pair⟩
  · refine .inr ⟨_, one, .inl ⟨rfl, ?_⟩⟩
    rw [if_neg (by decide), target,
      show (dec.regfbcount + 1 - dec.regfbcount : Int) = 1 by omega]
    exact Int.add_comm _ _
  · refine .inl ⟨none, ?_⟩
    rw [if_pos (by omega)]
  · refine .inr ⟨_, one, ?_⟩
    rcases pair with ⟨rfl, target⟩ | ⟨rfl, target⟩
    · exact .inr ⟨target, if_pos (by omega)⟩
    · exact .inl ⟨target, if_pos (by omega)⟩

theorem inv_decoder (kept : dec.kept = 1) (rotated : dec.postProcessing = true)
    (flags : dec.mjpg = false) (inv : Inv dec sys) (step : decoderStep dec sys = some sys') :
    Inv dec sys' := by
  obtain ⟨displayQ, releasedQ, dequeuedCount, decoding, dequeue, pc, thread, regs, log⟩ := sys
  obtain ⟨⟨dequeued, credits, frames⟩, phase, ready⟩ := inv
  simp only at dequeued credits frames phase ready
  cases pc with
  | decode => cases step
  | putPost =>
      obtain rfl := Option.some.inj step
      refine ⟨⟨dequeued, credits, ?_⟩, phase, fun dequeuing => by cases dequeuing⟩
      simp only [DecoderPc.unposted] at frames ⊢
      omega
  | getWait =>
      simp only [decoderStep] at step
      split at step
      · cases step
      · obtain rfl := Option.some.inj step
        refine ⟨⟨dequeued, ?_, frames⟩, phase, fun dequeuing => by cases dequeuing⟩
        simp only [DecoderPc.unpaid] at credits ⊢
        omega
  | getTest =>
      have slow : thread.uncounted ≤ thread.unposted := by
        cases thread <;> simp [ThreadPc.uncounted, ThreadPc.unposted]
      simp only [DecoderPc.uncounted, DecoderPc.unpaid] at dequeued credits
      simp only [decoderStep] at step
      split at step
      · obtain rfl := Option.some.inj step
        refine ⟨⟨by simpa [DecoderPc.uncounted] using dequeued, credits, frames⟩, phase, ?_⟩
        intro _ none
        simp only [none, List.length_nil] at dequeued
        omega
      · obtain rfl := Option.some.inj step
        refine ⟨⟨by simpa [DecoderPc.uncounted] using dequeued, credits, frames⟩, ?_,
          fun dequeuing => by cases dequeuing⟩
        -- with two buffers on their way the older one has been counted
        rcases phase with ⟨one, target⟩ | ⟨one, both, _⟩
        · exact .inl ⟨rfl, one, target⟩
        · have length := congrArg List.length both
          simp only [Sys.flight, List.length_append, List.length_cons, List.length_nil] at length
          omega
  | getDequeue =>
      obtain ⟨index, rest, holds⟩ := List.exists_cons_of_ne_nil (ready rfl)
      obtain ⟨taken, left⟩ := BufQueue.dequeueBuf_contents releasedQ index rest holds
      simp only [decoderStep, Option.some.injEq] at step
      subst step
      refine ⟨⟨?_, credits, frames⟩, ?_, fun dequeuing => by cases dequeuing⟩
      · simp only [left, holds, DecoderPc.uncounted, List.length_cons] at dequeued ⊢
        omega
      · have shorter : Sys.flight ⟨displayQ, releasedQ, dequeuedCount, decoding, dequeue,
            .getDequeue, thread, regs, log⟩ = index :: (rest ++ thread.blitting ++
              displayQ.contents) := by
          simp [Sys.flight, holds]
        rw [shorter] at phase
        simp only [Sys.flight, left, taken]
        rcases phase with ⟨one, target⟩ | ⟨one, both, pair⟩
        · obtain ⟨rfl, none⟩ := List.cons.inj one
          exact .inl ⟨rfl, none, target⟩
        · obtain ⟨rfl, one⟩ := List.cons.inj both
          exact .inr ⟨one, pair⟩
  | getCount index =>
      obtain rfl := Option.some.inj step
      refine ⟨⟨?_, credits, frames⟩, .inr phase, fun dequeuing => by cases dequeuing⟩
      simp only [DecoderPc.uncounted] at dequeued ⊢
      omega
  | recycle index =>
      simp only [decoderStep, Option.some.injEq] at step
      subst step
      exact ⟨⟨dequeued, credits, frames⟩, phase.recycle kept rotated flags,
        fun dequeuing => by cases dequeuing⟩

end OneCredit

/-! ## More credits: the two rules for the next target meet -/

/-- Between frames, with the thread waiting: the flags, the queues, the semaphores
and the variables of the loop. -/
structure At (sys : Sys) (flags displayed released : List Int) (decoding frames : Nat)
    (clr rotid : Int) : Prop where
  pc : sys.pc = .decode
  thread : sys.thread = .wait
  flagged : flagged sys.log = flags
  displayed : sys.displayQ.contents = displayed
  released : sys.releasedQ.contents = released
  dequeued : sys.dequeuedCount = sys.releasedQ.contents.length
  decoding : sys.avaiableDecodingFrame = decoding
  frames : sys.avaiableDequeueFrame = frames
  clr : sys.regs.dispClrIndex = clr
  rotid : sys.regs.rotid = rotid

section Turns
variable {dec : Decode} {sys : Sys} {flags displayed released : List Int}
  {decoding frames : Nat} {clr rotid : Int}

/-- The thread shows the oldest picture and hands its buffer over. -/
theorem leads_thread (dec : Decode) {index : Int} (shown : 0 ≤ index)
    (room : released.length < maxBufNum)
    (at' : At sys flags (index :: displayed) released decoding (frames + 1) clr rotid) :
    ∃ sys', Leads (sysStep dec) (fun _ => True) sys sys' ∧
      At sys' flags displayed (released ++ [index]) (decoding + 1) frames clr rotid := by
  obtain ⟨displayQ, releasedQ, dequeuedCount, credits, posted, _, _, regs, log⟩ := sys
  obtain ⟨rfl, rfl, flagged', displayed', released', dequeued, credits', posted', clr', rotid'⟩ :=
    at'
  simp only at flagged' displayed' released' dequeued credits' posted' clr' rotid'
  subst credits' posted'
  obtain ⟨taken, left⟩ := BufQueue.dequeueBuf_contents displayQ index displayed displayed'
  have given := (BufQueue.queueBuf_contents releasedQ index (by rw [released']; exact room)).2
  refine ⟨⟨displayQ.dequeueBuf.1, (releasedQ.queueBuf index).1, dequeuedCount + 1, credits + 1,
    frames, .decode, .wait, regs, log⟩, ⟨List.replicate 5 .display, by simp, ?_⟩, ?_⟩
  · have notLast : ¬ index < 0 := by omega
    simp [runEvents, sysStep, threadStep, taken, notLast, List.replicate]
  · refine ⟨rfl, rfl, flagged', left, by rw [given, released'], ?_, rfl, rfl, clr', rotid'⟩
    simp only [dequeued, given, List.length_append, List.length_singleton]
    omega

theorem leads_waiting (rotated : dec.postProcessing = true) (mjpg : dec.mjpg = false)
    (picture : Nat) (registered : picture < dec.regfbcount) (clear : (picture : Int) ∉ flags)
    (at' : At sys flags displayed released decoding frames (-1) rotid) :
    ∃ sys', Leads (sysStep dec) (fun _ => True) sys sys' ∧
      At sys' (picture :: flags) displayed released decoding frames picture rotid := by
  have allowed : (decoderStart dec).allows sys.log (.index picture) = true :=
    (reports_iff dec sys.log picture).mpr ⟨registered, .inr (by rw [at'.flagged]; exact clear)⟩
  have turn : (decoderStart dec).onOutput sys.regs (.index picture) =
      ([.setRotatorOutput sys.regs.rotid, .output picture],
        { sys.regs with dispClrIndex := picture }, none) := by
    simp [decoderStart, decoderOnOutput, setRotatorOps, rotates, rotated, mjpg, at'.clr]
  refine ⟨{ sys with
      regs := { sys.regs with dispClrIndex := picture }
      log := sys.log ++ [.setRotatorOutput sys.regs.rotid, .output picture] },
    ⟨[.output (.index picture)], by simp, ?_⟩, at'.pc, at'.thread, ?_, at'.displayed, at'.released,
    at'.dequeued, at'.decoding, at'.frames, rfl, at'.rotid⟩
  · simp [runEvents, sysStep, outputStep, at'.pc, allowed, turn]
  · simp [flagged, flaggedStep, ← at'.flagged]

/-- A picture is queued for display and the next target chosen with what the
decoder gets. -/
theorem leads_picture (rotated : dec.postProcessing = true) (mjpg : dec.mjpg = false)
    (picture : Nat) (registered : picture < dec.regfbcount) (clear : (picture : Int) ∉ flags)
    (room : displayed.length < maxBufNum) (waits : 0 ≤ clr)
    (indices : ∀ index ∈ released, 0 ≤ index)
    (at' : At sys flags displayed released (decoding + 1) frames clr rotid) :
    ∃ sys', Leads (sysStep dec) (fun _ => True) sys sys' ∧
      At sys' (List.filter (· ≠ clr) (picture :: flags)) (displayed ++ [rotid]) released.tail
        decoding (frames + 1) picture
        (released.head?.getD ((rotid + 1 - dec.regfbcount).tmod ((dec.kept + 1 : Nat) : Int) +
          dec.regfbcount)) := by
  have allowed : (decoderStart dec).allows sys.log (.index picture) = true :=
    (reports_iff dec sys.log picture).mpr ⟨registered, .inr (by rw [at'.flagged]; exact clear)⟩
  obtain ⟨displayQ, releasedQ, dequeuedCount, credits, posted, _, _, regs, log⟩ := sys
  obtain ⟨rfl, rfl, flagged', displayed', released', dequeued, credits', posted', clr', rotid'⟩ :=
    at'
  simp only at flagged' displayed' released' dequeued credits' posted' clr' rotid' allowed
  subst credits' posted' rotid' clr'
  have turn : (decoderStart dec).onOutput regs (.index picture) =
      ([.setRotatorOutput regs.rotid, .output picture],
        { regs with indexFrameDisplay := picture }, some regs.rotid) := by
    have ready : ¬ regs.dispClrIndex < 0 := by omega
    simp [decoderStart, decoderOnOutput, setRotatorOps, rotates, rotated, mjpg, ready]
  have later : ∀ back, ∃ target, (decoderStart dec).recycle
      { regs with indexFrameDisplay := picture } back =
        ([.clrDispFlag regs.dispClrIndex, .rotid target], ⟨picture, target, picture⟩) ∧
      target = if back ≠ -1 then back else (regs.rotid + 1 - dec.regfbcount).tmod
        ((dec.kept + 1 : Nat) : Int) + dec.regfbcount := by
    intro back
    refine ⟨_, ?_, (decoderRecycle_rotid rotated mjpg _ back)⟩
    simp [decoderStart, decoderRecycle, rotated, mjpg, clrList, waits]
  have queued := (BufQueue.queueBuf_contents displayQ regs.rotid
    (by rw [displayed']; exact room)).2
  cases released with
  | nil =>
      obtain ⟨target, recycle, next⟩ := later (-1)
      refine ⟨⟨(displayQ.queueBuf regs.rotid).1, releasedQ, dequeuedCount, decoding, posted + 1,
        .decode, .wait, ⟨picture, target, picture⟩, log ++ [.setRotatorOutput regs.rotid,
          .output picture, .clrDispFlag regs.dispClrIndex, .rotid target]⟩,
        ⟨.output (.index picture) :: List.replicate 4 .decoder, by simp, ?_⟩, rfl, rfl, ?_, ?_,
        released', dequeued, rfl, rfl, rfl, ?_⟩
      · simp [runEvents, sysStep, outputStep, decoderStep, allowed, turn, recycle, dequeued,
          released', List.replicate]
      · simp [flagged, flaggedStep, ← flagged']
      · rw [queued, displayed']
      · simpa using next
  | cons index rest =>
      obtain ⟨target, recycle, next⟩ := later index
      obtain ⟨taken, left⟩ := BufQueue.dequeueBuf_contents releasedQ index rest released'
      have behind := indices index (List.mem_cons_self ..)
      refine ⟨⟨(displayQ.queueBuf regs.rotid).1, releasedQ.dequeueBuf.1, dequeuedCount - 1,
        decoding, posted + 1, .decode, .wait, ⟨picture, target, picture⟩,
          log ++ [.setRotatorOutput regs.rotid, .output picture,
            .clrDispFlag regs.dispClrIndex, .rotid target]⟩,
        ⟨.output (.index picture) :: List.replicate 6 .decoder, by simp, ?_⟩, rfl, rfl, ?_, ?_,
        left, ?_, rfl, rfl, rfl, ?_⟩
      · have some : dequeuedCount > 0 := by
          rw [dequeued, released', List.length_cons]
          omega
        simp [runEvents, sysStep, outputStep, decoderStep, allowed, turn, recycle, some, taken,
          List.replicate]
      · simp [flagged, flaggedStep, ← flagged']
      · rw [queued, displayed']
      · simp only [dequeued, released', left, List.length_cons]
        omega
      · rw [if_pos (by omega)] at next
        simpa using next

end Turns

theorem at_start (dec : Decode) (displayList releasedList : Nat → Int)
    (rotated : dec.postProcessing = true) (mjpg : dec.mjpg = false) :
    At (.start dec displayList releasedList) [] [] [] dec.kept 0 (-1) dec.regfbcount :=
  ⟨rfl, rfl, rfl, rfl, rfl, rfl, rfl, rfl, rfl, (decoderStart_rotating rotated mjpg).start.2⟩

/-- With two credits the decoder gets the second buffer on the way round while it
waits for display: the first is shown early, taken again, and counted on from. -/
theorem leads_unsafe (dec : Decode) (rotated : dec.postProcessing = true)
    (mjpg : dec.mjpg = false) (credits : 2 ≤ dec.kept) (displayList releasedList : Nat → Int) :
    ∃ sys, Leads (sysStep dec) (fun _ => True) (.start dec displayList releasedList) sys ∧
      ¬ Safe sys := by
  obtain ⟨more, enough⟩ := Nat.exists_eq_add_of_le credits
  have registered : 2 ≤ dec.regfbcount := by
    unfold Decode.kept at credits
    omega
  have second : Int.tmod 1 ((dec.kept : Int) + 1) + dec.regfbcount = dec.regfbcount + 1 := by
    rw [Int.tmod_eq_of_lt (by omega) (by omega)]
    omega
  have start := at_start dec displayList releasedList rotated mjpg
  rw [enough, show 2 + more = more + 1 + 1 by omega] at start
  obtain ⟨sys1, leads1, at1⟩ := leads_waiting rotated mjpg 0 (by omega) (by simp) start
  obtain ⟨sys2, leads2, at2⟩ := leads_picture rotated mjpg 1 (by omega) (by simp)
    (by decide) (by decide) (by simp) at1
  have shown : At sys2 [1] [dec.regfbcount] [] (more + 1) 1 1 (dec.regfbcount + 1) := by
    simpa [second] using at2
  obtain ⟨sys3, leads3, at3⟩ := leads_thread dec (by omega) (by decide) shown
  obtain ⟨sys4, leads4, at4⟩ := leads_picture rotated mjpg 0 (by omega) (by simp)
    (by decide) (by decide) (by simp) at3
  have again : At sys4 [0] [dec.regfbcount + 1] [] (more + 1) 1 0 dec.regfbcount := by
    simpa using at4
  obtain ⟨sys5, leads5, at5⟩ := leads_picture rotated mjpg 1 (by omega) (by simp)
    (by simp [maxBufNum]) (by decide) (by simp) again
  have met : At sys5 [1] [dec.regfbcount + 1, dec.regfbcount] [] more 2 1
      (dec.regfbcount + 1) := by
    simpa [second] using at5
  refine ⟨sys5, leads1.trans (leads2.trans (leads3.trans (leads4.trans leads5))), ?_⟩
  intro safe
  refine (safe.target met.pc).1 ?_
  rw [met.rotid, met.displayed]
  simp

/-- The target never waits for display or is on the screen, in every interleaving,
iff there is one credit. -/
theorem android_safe_iff (dec : Decode) (rotated : dec.postProcessing = true)
    (mjpg : dec.mjpg = false) (kept : 1 ≤ dec.kept) :
    (∀ displayList releasedList acts sys,
      runEvents (sysStep dec) acts (.start dec displayList releasedList) = some sys → Safe sys) ↔
      dec.kept = 1 := by
  constructor
  · intro safe
    by_contra more
    obtain ⟨sys, ⟨acts, _, run⟩, notSafe⟩ :=
      leads_unsafe dec rotated mjpg (by omega) (fun _ => 0) (fun _ => 0)
    exact notSafe (safe _ _ acts sys run)
  · intro one displayList releasedList acts sys run
    suffices inv : Inv dec sys from inv.safe
    refine runEvents_preserves ?_ acts _ sys
      (inv_start displayList releasedList one rotated mjpg) run
    intro before act after inv step
    cases act with
    | output output => exact inv_output rotated mjpg inv step
    | decoder => exact inv_decoder one rotated mjpg inv step
    | display => exact inv_thread inv step

theorem android_safe_iff_one :
    (∀ displayList releasedList acts sys,
      runEvents (sysStep ⟨3, 2, true, false, false⟩) acts
        (.start ⟨3, 2, true, false, false⟩ displayList releasedList) = some sys → Safe sys) ↔
      (⟨3, 2, true, false, false⟩ : Decode).kept = 1 :=
  android_safe_iff ⟨3, 2, true, false, false⟩ rfl rfl (by decide)

/-- Two credits and the rotation buffers 4, 5 and 6: buffer 4 is shown at once and
taken again while 5 waits, and the count from 4 chooses 5. -/
theorem android_reuses_waiting :
    let dec : Decode := ⟨4, 2, true, false, false⟩
    let acts : List Act :=
      [Act.output (.index 0), .output (.index 1)] ++ List.replicate 4 Act.decoder ++
        List.replicate 5 Act.display ++
        [Act.output (.index 0)] ++ List.replicate 6 Act.decoder ++
        [Act.output (.index 1)] ++ List.replicate 4 Act.decoder
    ∃ sys : Sys, runEvents (sysStep dec) acts (.start dec (fun _ => 0) (fun _ => 0)) = some sys ∧
      sys.pc = .decode ∧ sys.regs.rotid = 5 ∧ sys.displayQ.contents = [5, 4] ∧ ¬ Safe sys := by
  intro dec acts
  have reached : (runEvents (sysStep dec) acts (.start dec (fun _ => 0) (fun _ => 0))).map
      (fun sys => (sys.pc, sys.regs.rotid, sys.displayQ.contents)) =
      some (.decode, 5, [5, 4]) := by
    decide +kernel
  obtain ⟨sys, run, fields⟩ := Option.map_eq_some_iff.mp reached
  obtain ⟨pc, target, waiting⟩ : sys.pc = .decode ∧ sys.regs.rotid = 5 ∧
      sys.displayQ.contents = [5, 4] := by
    simpa using fields
  refine ⟨sys, run, pc, target, waiting, ?_⟩
  intro safe
  have away := (safe.target pc).1
  rw [target, waiting] at away
  simp at away

end ImxTest.Vpu.AndroidDisplay
