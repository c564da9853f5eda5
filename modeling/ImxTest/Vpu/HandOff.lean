import ImxTest.Vpu.DecoderDisplay

/-!
# Performance mode: the hand-over never stops

The decoder spends a credit for each frame, and from the frame on that fills the
driver the display thread earns it back.  In every interleaving one of the two can
go on, the thread de-queues only what the driver holds, and `v4l_get_buf` comes
back empty-handed for the frames that fill the driver and for no others.
-/

set_option autoImplicit false

namespace ImxTest.Vpu.HandOff

open ImxTest.Lib.Run
open ImxTest.Vpu.Ownership
open ImxTest.Vpu.V4lDisplay
open ImxTest.Vpu.DisplayClient
open ImxTest.Vpu.DecoderDisplay

def isQbuf : Op → Bool
  | .qbuf _ => true
  | _ => false

def framesPut (log : List Op) : Nat := log.countP isQbuf

/-- A loop that calls `v4l_put_data` with a buffer and then `v4l_get_buf`. -/
structure FrameClient {Regs : Type} (client : Client Regs) (valid : Regs → Prop) : Prop where
  getBuf : client.getBuf = true
  start : valid client.start
  onOutput : ∀ regs output, valid regs → valid (client.onOutput regs output).2.1
  shown : ∀ regs output index, valid regs → (client.onOutput regs output).2.2 = some index →
    0 ≤ index
  recycle : ∀ regs back, valid regs → -1 ≤ back → valid (client.recycle regs back).2
  outputOps : ∀ regs output, framesPut (client.onOutput regs output).1 = 0
  recycleOps : ∀ regs back, framesPut (client.recycle regs back).1 = 0

/-- What the hand-over promises in a state. -/
structure HandsOver {Regs : Type} (dec : Decode) (sys : Sys Regs) : Prop where
  /-- Not both of them wait. -/
  moves : ¬ ((sys.pc = .getWait ∧ sys.display.avaiableDecodingFrame = 0) ∧
    (sys.thread = .wait ∧ sys.display.avaiableDequeueFrame = 0))
  dqbuf : sys.thread = .dqbuf → sys.display.driver ≠ []
  /-- `v4l_get_buf` has just returned for the last frame put. -/
  returns : ∀ back, sys.pc = .recycle back →
    (back = -1 ↔ framesPut sys.log ≤ dec.regfbcount - dec.minfbcount)

theorem framesPut_append (log more : List Op) :
    framesPut (log ++ more) = framesPut log + framesPut more :=
  List.countP_append

theorem framesPut_putOps (kept : Nat) (window : List Int) (index : Int) :
    framesPut (putOps kept window index) = 1 := by
  unfold putOps
  cases (windowPut kept window index).2 with
  | none => rfl
  | some oldest => rfl

/-! ## How full the driver is -/

section Filling
variable {Regs : Type} {dec : Decode} {client : Client Regs} {valid : Regs → Prop}

/-- The window after so many frames. -/
structure Filled (dec : Decode) (valid : Regs → Prop) (model : Model Regs) : Prop where
  valid : valid model.regs
  indices : ∀ index ∈ model.window, 0 ≤ index
  length : model.window.length = min (framesPut model.log) dec.kept

/-- A frame grows the window up to its size and pushes the oldest buffer out after
that. -/
theorem windowPut_filled {kept count : Nat} {window : List Int} {index : Int}
    (indices : ∀ one ∈ window, 0 ≤ one) (length : window.length = min count kept)
    (shown : 0 ≤ index) :
    (∀ one ∈ (windowPut kept window index).1, 0 ≤ one) ∧
      (windowPut kept window index).1.length = min (count + 1) kept ∧
      -1 ≤ (windowPut kept window index).2.getD (-1) ∧
      ((windowPut kept window index).2.getD (-1) = -1 ↔ count + 1 ≤ kept) := by
  have both : ∀ one ∈ window ++ [index], 0 ≤ one := by
    intro one mem
    rcases List.mem_append.mp mem with mem | mem
    · exact indices one mem
    · rw [List.mem_singleton.mp mem]
      exact shown
  by_cases room : window.length < kept
  · rw [windowPut_room kept window index room]
    refine ⟨both, ?_, ?_, ?_⟩
    · simp only [List.length_append, List.length_singleton]
      omega
    · simp
    · simp only [Option.getD_none, true_iff]
      omega
  · obtain ⟨oldest, rest, split⟩ := append_eq_cons window index
    have grown := congrArg List.length split
    simp only [List.length_append, List.length_cons, List.length_nil] at grown
    rw [windowPut_full kept window index oldest rest split (by omega)]
    rw [split] at both
    have first := both oldest (List.mem_cons_self ..)
    refine ⟨fun one mem => both one (List.mem_cons_of_mem _ mem), ?_, ?_, ?_⟩
    · simp only
      omega
    · simp only [Option.getD_some]
      omega
    · simp only [Option.getD_some]
      omega

theorem FrameClient.filled (frames : FrameClient client valid) {model : Model Regs}
    (reaches : ModelReaches dec client model) : Filled dec valid model := by
  refine reaches.induct (Filled dec valid) ⟨frames.start, by simp [Model.start], ?_⟩ ?_ ?_
  · simp [Model.start, framesPut]
  · intro model output filled _ _
    refine ⟨frames.onOutput _ _ filled.valid, filled.indices, ?_⟩
    simp only [Model.passed, framesPut_append, frames.outputOps, Nat.add_zero]
    exact filled.length
  · intro model output index filled _ shown
    obtain ⟨indices, length, back, _⟩ := windowPut_filled filled.indices filled.length
      (frames.shown _ _ index filled.valid shown)
    refine ⟨frames.recycle _ _ (frames.onOutput _ _ filled.valid) back, indices, ?_⟩
    simp only [Model.showed, framesPut_append, frames.outputOps, frames.recycleOps,
      framesPut_putOps, Nat.add_zero]
    exact length

end Filling

/-! ## Every interleaving -/

section Every
variable {Regs : Type} {dec : Decode} {client : Client Regs} {valid : Regs → Prop}

/-- With a frame on its way the decoder has a credit, or the thread has one, or the
thread is at work. -/
theorem putting_moves {window : List Int} {index : Int} {thread : ThreadPc} {display : Display}
    {done : List Op} (putting : Putting dec window index .getWait thread display done)
    (waits : thread = .wait) :
    display.avaiableDecodingFrame ≠ 0 ∨ display.avaiableDequeueFrame ≠ 0 := by
  cases putting with
  | fillWait _ room is =>
      left
      rw [is.decoding]
      omega
  | handWait _ _ is =>
      right
      rw [is.dequeue]
      decide
  | handed _ _ _ _ _ is =>
      left
      rw [is.decoding]
      decide
  | handDqbuf _ _ _ => cases waits
  | handRelease _ _ _ _ _ _ => cases waits
  | handCount _ _ _ _ _ _ => cases waits
  | handPost _ _ _ _ _ _ => cases waits

theorem putting_dqbuf {window : List Int} {index : Int} {pc : DecoderPc} {display : Display}
    {done : List Op} (putting : Putting dec window index pc .dqbuf display done) :
    display.driver ≠ [] := by
  cases putting with
  | handDqbuf _ _ is =>
      rw [is.driver]
      simp

/-- `v4l_get_buf` returns -1 for the frames that the window has room for. -/
theorem putting_returns {window : List Int} {index back : Int} {thread : ThreadPc}
    {display : Display} {done : List Op} {count : Nat}
    (putting : Putting dec window index (.recycle back) thread display done)
    (indices : ∀ one ∈ window, 0 ≤ one) (length : window.length = min count dec.kept)
    (shown : 0 ≤ index) : framesPut done = 1 ∧ (back = -1 ↔ count + 1 ≤ dec.kept) := by
  cases putting with
  | recycle idle =>
      exact ⟨framesPut_putOps _ _ _, (windowPut_filled indices length shown).2.2.2⟩

/-- In every interleaving of a loop with the display thread, the two never wait for
each other, the thread finds a buffer in the driver, and the first frames and no
others bring nothing back.  Without the thread, in normal mode, the same is true of
what `v4l_put_data` leaves in `buf.index`. -/
theorem handOff_goes_on (frames : FrameClient client valid) (list : Nat → Int) (bufIndex : Int)
    (acts : List Act) (sys : Sys Regs)
    (run : runEvents (sysStep dec client) acts (.start dec client list bufIndex) = some sys) :
    HandsOver dec sys := by
  obtain ⟨model, reaches, sim⟩ :=
    sysStep_refines (fun _ => frames.getBuf) list bufIndex acts sys run
  have filled := frames.filled reaches
  cases sim with
  | between pc thread _ _ _ =>
      refine ⟨?_, ?_, ?_⟩
      · rintro ⟨⟨waits, _⟩, _⟩
        rw [pc] at waits
        cases waits
      · intro dqbuf
        rw [thread] at dqbuf
        cases dqbuf
      · intro back recycles
        rw [pc] at recycles
        cases recycles
  | within output ops done index _ onOutput log putting =>
      have shown : 0 ≤ index := frames.shown model.regs output index filled.valid (by rw [onOutput])
      have quiet : framesPut ops = 0 := by
        have none := frames.outputOps model.regs output
        rwa [onOutput] at none
      refine ⟨?_, ?_, ?_⟩
      · rintro ⟨⟨waits, noDecoding⟩, threadWaits, noDequeue⟩
        rw [waits] at putting
        rcases putting_moves putting threadWaits with decoding | dequeue
        · exact decoding noDecoding
        · exact dequeue noDequeue
      · intro dqbuf
        rw [dqbuf] at putting
        exact putting_dqbuf putting
      · intro back recycles
        rw [recycles] at putting
        obtain ⟨one, returned⟩ := putting_returns putting filled.indices filled.length shown
        rw [log, framesPut_append, framesPut_append, quiet, one]
        exact returned

end Every

/-! ## `decoder_start` -/

theorem framesPut_setRotatorOps (dec : Decode) (regs : Regs) :
    framesPut (setRotatorOps dec regs) = 0 := by
  unfold setRotatorOps
  split <;> rfl

theorem framesPut_clrOps (clears : Bool) (dispClrIndex : Int) :
    framesPut (clrOps clears dispClrIndex) = 0 := by
  unfold clrOps DisplayTurn.clrList
  split
  · split <;> rfl
  · rfl

theorem next_rotid_nonneg {rotid : Int} (valid : 0 ≤ rotid) (regfbcount extrafb : Nat) :
    0 ≤ (rotid + 1 - regfbcount).tmod extrafb + regfbcount := by
  have size := Int.natAbs_tmod (rotid + 1 - (regfbcount : Int)) (extrafb : Int)
  have small := Nat.mod_le (rotid + 1 - (regfbcount : Int)).natAbs (extrafb : Int).natAbs
  by_cases behind : 0 ≤ rotid + 1 - (regfbcount : Int)
  · have := Int.tmod_nonneg (extrafb : Int) behind
    omega
  · omega

/-- A turn without a picture puts nothing and leaves the target alone. -/
theorem decoderNoPicture_quiet (dec : Decode) (regs : Regs) (indexFrameDisplay : Int) :
    framesPut (decoderNoPicture dec regs indexFrameDisplay).1 = 0 ∧
      (decoderNoPicture dec regs indexFrameDisplay).2.1.rotid = regs.rotid ∧
      (decoderNoPicture dec regs indexFrameDisplay).2.2 = none := by
  unfold decoderNoPicture
  split
  · exact ⟨framesPut_setRotatorOps dec regs, rfl, rfl⟩
  · refine ⟨?_, rfl, rfl⟩
    rw [framesPut_append, framesPut_setRotatorOps, framesPut_clrOps]

/-- A turn puts nothing itself, and what it shows is a buffer of the VPU or the target. -/
theorem decoderOnOutput_shows (dec : Decode) (regs : Regs) (output : Output) :
    framesPut (decoderOnOutput dec regs output).1 = 0 ∧
      (decoderOnOutput dec regs output).2.1.rotid = regs.rotid ∧
      ∀ index, (decoderOnOutput dec regs output).2.2 = some index →
        index = regs.rotid ∨ 0 ≤ index := by
  cases output with
  | index picture =>
      have quiet : framesPut (setRotatorOps dec regs ++ [.output picture]) = 0 := by
        rw [framesPut_append, framesPut_setRotatorOps]
        rfl
      simp only [decoderOnOutput]
      split
      · split
        · exact ⟨quiet, rfl, fun index shown => by cases shown⟩
        · exact ⟨quiet, rfl, fun index shown => .inl (Option.some.inj shown).symm⟩
      · refine ⟨quiet, rfl, ?_⟩
        intro index shown
        obtain rfl := Option.some.inj shown
        split
        · exact .inl rfl
        · exact .inr (by omega)
  | minus2 =>
      obtain ⟨quiet, same, none⟩ := decoderNoPicture_quiet dec regs (-2)
      exact ⟨quiet, same, fun index shown => by cases none.symm.trans shown⟩
  | minus3 =>
      obtain ⟨quiet, same, none⟩ := decoderNoPicture_quiet dec regs (-3)
      exact ⟨quiet, same, fun index shown => by cases none.symm.trans shown⟩

theorem decoderStart_frames (dec : Decode) :
    FrameClient (decoderStart dec) (fun regs => 0 ≤ regs.rotid) where
  getBuf := rfl
  start := by
    simp only [decoderStart, startRegs]
    split
    · decide
    · split <;> omega
  onOutput regs output valid := by
    have same := (decoderOnOutput_shows dec regs output).2.1
    simp only [decoderStart, same]
    exact valid
  shown regs output index valid shown := by
    rcases (decoderOnOutput_shows dec regs output).2.2 index shown with rfl | nonneg
    · exact valid
    · exact nonneg
  recycle regs back valid least := by
    simp only [decoderStart, decoderRecycle]
    split
    · exact Int.tmod_nonneg _ (by omega)
    · split
      · simp only
        split
        · omega
        · exact next_rotid_nonneg valid _ _
      · exact valid
  outputOps regs output := (decoderOnOutput_shows dec regs output).1
  recycleOps regs back := by
    simp only [decoderStart, decoderRecycle]
    split
    · exact (framesPut_append _ _).trans (by rw [framesPut_clrOps]; rfl)
    · split
      · exact (framesPut_append _ _).trans (by rw [framesPut_clrOps]; rfl)
      · exact framesPut_clrOps _ _

/-- One credit: `v4l_get_buf` returns -1 for buffer 0 and, once the thread has moved,
buffer 0 for buffer 1. -/
theorem handOff_goes_on_one :
    let dec : Decode := ⟨3, 2, false, false, true⟩
    let acts : List Act :=
      [Act.output (.index 0)] ++ List.replicate 5 Act.decoder ++ [Act.output (.index 1)] ++
        [Act.decoder, Act.decoder] ++ List.replicate 5 Act.display ++ List.replicate 4 Act.decoder
    ∃ sys : Sys Regs, runEvents (sysStep dec (decoderStart dec)) acts
        (.start dec (decoderStart dec) (fun _ => 0) 0) = some sys ∧
      sys.pc = .recycle 0 ∧ framesPut sys.log = 2 ∧ HandsOver dec sys := by
  intro dec acts
  have reached : (runEvents (sysStep dec (decoderStart dec)) acts
      (.start dec (decoderStart dec) (fun _ => 0) 0)).map (fun sys => (sys.pc, sys.log)) =
      some (.recycle 0, [.output 0, .qbuf 0, .output 1, .qbuf 1, .dqbuf 0]) := by
    decide +kernel
  obtain ⟨sys, run, fields⟩ := Option.map_eq_some_iff.mp reached
  obtain ⟨pc, log⟩ := Prod.mk.inj fields
  refine ⟨sys, run, pc, ?_, handOff_goes_on (decoderStart_frames dec) _ _ acts sys run⟩
  rw [log]
  rfl

end ImxTest.Vpu.HandOff
