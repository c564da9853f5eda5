import ImxTest.Vpu.DecodeTest
import ImxTest.Vpu.EncodeTest

/-!
# What `encdec_test` leaves behind

The loop-back test has an encoder and a decoder at once, and a label for each step of their
clean-up.  The camera, which the encoder's buffers come with, is stopped at the last of them
only.
-/

set_option autoImplicit false

namespace ImxTest.Vpu.EncdecTest

open ImxTest.Lib.Traced
open ImxTest.Lib.Ledger
open ImxTest.Vpu.Buffers
open ImxTest.Vpu.EncodeTest (Read Frames FramesSet)
open ImxTest.Vpu.DecodeTest (Leftovers Ready)

structure Run where
  decoder : DecodeTest.Run
  minFrameBufferCount : Nat
  turns : Nat

def Run.encoder (run : Run) : EncodeTest.Run :=
  { run.decoder.toSystem with minFrameBufferCount := run.minFrameBufferCount }

section Functions
variable (run : Run) (cmdl : CmdLine)

def fillHeaders : Routine Unit :=
  if run.decoder.mx6x = true ∧ cmdl.format = .mjpg then pure ()
  else step run.decoder.toSystem .encoderHeaders .err3

def putData (i : Nat) : Routine Unit :=
  if run.decoder.does (.decode i) then deref .v4lRsd .segfault else pure ()

/-- `decode`, which looks into the display. -/
def decode (i : Nat) : Routine Unit := do
  deref .display .segfault
  putData run i

def decoderBody : Routine Unit := do
  take (run.decoder.gives (.handle .dec)) (.handle .dec) .err2
  fillHeaders run cmdl
  step run.decoder.toSystem .startCapturing .err3
  (List.range 5).forM fun i => step run.decoder.toSystem (.encode i) .err4
  DecodeTest.decoderParse run.decoder .err4
  DecodeTest.takeIf run.decoder (cmdl.format = .avc) .slice .err4
  match ← DecodeTest.decoderAllocateFramebuffer run.decoder cmdl.opened with
  | false => quit .err4
  | true => (List.range run.turns).forM (decode run)

/-- `encdec_test` up to its labels.  As in `encode_test`, the scratch buffer is left out. -/
def encdecBody : Routine Unit := do
  take (run.decoder.gives (.object .enc)) (.object .enc) .err
  take (run.decoder.gives (.phys (.bitstream .enc))) (.phys (.bitstream .enc)) .err
  take (run.decoder.gives (.virt (.bitstream .enc))) (.virt (.bitstream .enc)) .err
  take (run.decoder.gives (.object .dec)) (.object .dec) .err
  take (run.decoder.gives (.phys (.bitstream .dec))) (.phys (.bitstream .dec)) .err1
  take (run.decoder.gives (.virt (.bitstream .dec))) (.virt (.bitstream .dec)) .err1
  DecodeTest.takeIf run.decoder (cmdl.format = .avc) .ps .err1
  EncodeTest.encoderOpen run.encoder cmdl .err1
  EncodeTest.encoderConfigure run.encoder .err2
  match ← EncodeTest.encoderAllocateFramebuffer run.encoder cmdl with
  | false => quit .err2
  | true => decoderBody run cmdl

def cleanUpErr1 : Routine Unit := do
  DecodeTest.giveBackIf (cmdl.format = .avc) .ps
  DecodeTest.giveBackIf (cmdl.format = .avc) .slice
  giveBack (.virt (.bitstream .dec))
  giveBack (.phys (.bitstream .dec))
  giveBack (.object .dec)
  EncodeTest.cleanUpErr run.encoder cmdl

def cleanUpErr2 : Routine Unit := do
  release (.handle .enc)
  EncodeTest.encoderFreeFramebuffer
  cleanUpErr1 run cmdl

def cleanUpErr3 : Routine Unit := do
  release (.handle .dec)
  DecodeTest.decoderFreeFramebuffer cmdl.opened
  cleanUpErr2 run cmdl

def cleanUpErr4 : Routine Unit := do
  release .capture
  cleanUpErr3 run cmdl

def encdecTest : Routine Unit :=
  handle (encdecBody run cmdl) fun
    | .ok _ => cleanUpErr4 run cmdl
    | .error .segfault => quit .segfault
    | .error .err4 => cleanUpErr4 run cmdl
    | .error .err3 => cleanUpErr3 run cmdl
    | .error .err2 => cleanUpErr2 run cmdl
    | .error .err1 => cleanUpErr1 run cmdl
    | .error _ => EncodeTest.cleanUpErr run.encoder cmdl

end Functions

/-! ## What can be left at the labels -/

/-- What the test has taken before the encoder is open. -/
def Setup (cmdl : CmdLine) (r : Resource) : Prop := EncodeTest.Setup r ∨ DecodeTest.Setup cmdl r

/-- What the labels `err1` and `err` give back. -/
def Remaining (cmdl : CmdLine) (r : Resource) : Prop :=
  Setup cmdl r ∨ (cmdl.format = .avc ∧ r = .phys .slice)

/-- What it has taken before the decoder is open, the camera apart. -/
def Encoding (cmdl : CmdLine) (totalfb : Nat) (r : Resource) : Prop :=
  (Setup cmdl r ∨ r = .handle .enc) ∨ Frames true totalfb r

def Working (cmdl : CmdLine) (totalfb : Nat) (r : Resource) : Prop :=
  (Remaining cmdl r ∨ r = .handle .enc) ∨ Frames true totalfb r

def WorkingSet (run : Run) (cmdl : CmdLine) (r : Resource) : Prop :=
  Read run.encoder cmdl r ∨ FramesSet true r

def Run.totalfb (run : Run) (cmdl : CmdLine) : Nat := EncodeTest.srcFbid run.encoder cmdl + 1

def encdecJumps (run : Run) (cmdl : CmdLine) : Exit → Assertion Resource Counts
  | .err => fun store held => ∃ counts,
      Tidy counts (Between (Read run.encoder cmdl) EncodeTest.Setup) store held
  | .err1 => fun store held => ∃ counts,
      Tidy counts (Between (Read run.encoder cmdl) (Remaining cmdl)) store held
  | .err2 => fun store held => ∃ counts pool,
      Tidy counts (Between (fun r => Read run.encoder cmdl r ∨ FramesSet pool r) fun r =>
        (Remaining cmdl r ∨ r = .handle .enc) ∨ Frames pool counts.encTotalfb r) store held
  | .err3 => Leftovers cmdl.opened (run.totalfb cmdl) (WorkingSet run cmdl)
      fun r => Working cmdl (run.totalfb cmdl) r ∨ r = .handle .dec
  | .err4 => Leftovers cmdl.opened (run.totalfb cmdl) (WorkingSet run cmdl)
      fun r => Working cmdl (run.totalfb cmdl) r ∨ r = .handle .dec ∨ r = .capture
  | _ => fun _ _ => False

/-- The calls whose failure is not cleaned up, and the display that `decode` looks into. -/
structure Spared (run : Run) (cmdl : CmdLine) : Prop where
  object : run.decoder.mx6x = true → cmdl.format = .mpeg4 →
    run.decoder.gives (.object .enc) = true
  tables : run.decoder.mx6x = false → cmdl.format = .mjpg →
    run.decoder.gives (.handle .enc) = false
  camera : cmdl.srcScheme = .v4l2 → EncodeTest.CameraSpared run.decoder.toSystem
  /-- This and the next two leave by a label behind the one that stops the camera. -/
  opens : cmdl.srcScheme = .v4l2 → run.decoder.gives (.handle .dec) = true
  headers : cmdl.srcScheme = .v4l2 → ¬ (run.decoder.mx6x = true ∧ cmdl.format = .mjpg) →
    run.decoder.does .encoderHeaders = true
  capturing : cmdl.srcScheme = .v4l2 → run.decoder.does .startCapturing = true
  room : run.totalfb cmdl ≤ maxBufNum
  display : cmdl.dstScheme = .v4l2
  decoder : DecodeTest.Spared run.decoder cmdl.opened
    (DecodeTest.total (run.decoder.needs cmdl.opened))

section Specs
variable {run : Run} {cmdl : CmdLine} {counts : Counts} {must may : Resource → Prop}
  {left : Exit → Assertion Resource Counts}

/-! ### The clean-ups -/

theorem cleanUpErr1_spec :
    Spec (encdecJumps run cmdl .err1) (cleanUpErr1 run cmdl) (fun _ _ held => held = nothing)
      left := by
  have rest : Spec (Winding (Read run.encoder cmdl) (Remaining cmdl)) (cleanUpErr1 run cmdl)
      (fun _ _ held => held = nothing) left := by
    unfold cleanUpErr1
    refine Spec.bind (@DecodeTest.giveBackIf_spec _ _ _ _ (fun r => EncodeTest.Setup r ∨
      r = .object .dec ∨ r = .phys (.bitstream .dec) ∨ r = .virt (.bitstream .dec) ∨
      (cmdl.format = .avc ∧ r = .phys .slice)) _ (by grind [Remaining, Setup, DecodeTest.Setup])
      (by grind [Remaining, Setup, DecodeTest.Setup, EncodeTest.Setup])) fun _ => ?_
    refine Spec.bind (@DecodeTest.giveBackIf_spec _ _ _ _ (fun r => EncodeTest.Setup r ∨
      r = .object .dec ∨ r = .phys (.bitstream .dec) ∨ r = .virt (.bitstream .dec)) _ (by grind)
      (by grind [EncodeTest.Setup])) fun _ => ?_
    refine Spec.bind (@giveBack_winding _ _ _ _ _ _ (fun r => EncodeTest.Setup r ∨
      r = .object .dec ∨ r = .phys (.bitstream .dec)) _ _ (by grind)
      (by grind [EncodeTest.Setup])) fun _ => ?_
    refine Spec.bind (@giveBack_winding _ _ _ _ _ _ (fun r => EncodeTest.Setup r ∨
      r = .object .dec) _ _ (by grind) (by grind [EncodeTest.Setup])) fun _ => ?_
    refine Spec.bind (@giveBack_winding _ _ _ _ _ _ EncodeTest.Setup _ _ (by grind)
      (by grind [EncodeTest.Setup])) fun _ => ?_
    exact EncodeTest.cleanUpErr_winding
  exact Spec.any fun counts => rest.strengthen fun _ _ start => start.winding

theorem remaining_frames {r : Resource} (owned : EncodeTest.OfFramebuffers r) :
    ¬ Remaining cmdl r := by
  grind [EncodeTest.OfFramebuffers, OfFrame, OfMem, Remaining, Setup, EncodeTest.Setup,
    DecodeTest.Setup]

theorem cleanUpErr2_spec :
    Spec (encdecJumps run cmdl .err2) (cleanUpErr2 run cmdl) (fun _ _ held => held = nothing)
      left := by
  refine Spec.any fun counts => Spec.any fun pool => ?_
  unfold cleanUpErr2
  refine Spec.bind (release_between (fun r => Read run.encoder cmdl r ∨ FramesSet pool r)
    (fun r => Remaining cmdl r ∨ Frames pool counts.encTotalfb r) (by grind [Read, FramesSet])
    (by grind)) fun _ => ?_
  refine Spec.bind (EncodeTest.encoderFreeFramebuffer_spec
    (by grind [Read, Remaining, Setup, EncodeTest.Setup]) fun r => remaining_frames) fun _ => ?_
  exact cleanUpErr1_spec.strengthen fun _ _ start => ⟨_, start⟩

theorem working_apart {n : Nat} (r : Resource) (owned : DecodeTest.OfFramebuffers r) :
    ¬ Working cmdl n r := by
  cases r <;> grind [DecodeTest.OfFramebuffers, OfDisplay, OfFrame, OfMem, DecodeTest.OfMvcol,
    Working, Remaining, Setup, EncodeTest.Setup, DecodeTest.Setup, Frames, Entries]

theorem cleanUpErr3_spec :
    Spec (encdecJumps run cmdl .err3) (cleanUpErr3 run cmdl) (fun _ _ held => held = nothing)
      left := by
  unfold cleanUpErr3
  refine Spec.bind (DecodeTest.release_leftovers (Working cmdl (run.totalfb cmdl))
    (by grind [DecodeTest.OfFramebuffers, OfDisplay, OfFrame, OfMem, DecodeTest.OfMvcol])
    (by grind [WorkingSet, Read, FramesSet]) (by grind)) fun _ => ?_
  refine Spec.bind (DecodeTest.free_leftovers
    (by grind [WorkingSet, Read, FramesSet, Working, Remaining, Setup, Frames,
      EncodeTest.Setup])
    working_apart) fun _ => ?_
  refine cleanUpErr2_spec.strengthen ?_
  rintro store held ⟨counts, same, start⟩
  rw [← same] at start
  exact ⟨counts, true, start⟩

theorem cleanUpErr4_spec :
    Spec (encdecJumps run cmdl .err4) (cleanUpErr4 run cmdl) (fun _ _ held => held = nothing)
      left := by
  unfold cleanUpErr4
  exact Spec.bind (DecodeTest.release_leftovers
    (fun r => Working cmdl (run.totalfb cmdl) r ∨ r = .handle .dec)
    (by grind [DecodeTest.OfFramebuffers, OfDisplay, OfFrame, OfMem, DecodeTest.OfMvcol])
    (by grind [WorkingSet, Read, FramesSet]) (by grind)) fun _ => cleanUpErr3_spec

/-! ### The decoder's part -/

/-- The camera's device is open where the source pictures come from it. -/
def OfCamera (cmdl : CmdLine) (r : Resource) : Prop := cmdl.srcScheme = .v4l2 ∧ r = .capture

/-- A jump to `err3`, for which the camera must not be open. -/
theorem jump_err3 (closed : cmdl.srcScheme ≠ .v4l2) (store : Store Resource Counts)
    (held : Resource → Bool)
    (tidy : Tidy ⟨0, 0, 0, run.totalfb cmdl⟩ (Between (WorkingSet run cmdl) fun r =>
      Encoding cmdl (run.totalfb cmdl) r ∨ OfCamera cmdl r ∨ r = .handle .dec) store held) :
    encdecJumps run cmdl .err3 store held :=
  ⟨_, ⟨false, false, false⟩, .onlyFrames rfl,
    tidy.widen (by grind [DecodeTest.KeptSet])
      (by grind [OfCamera, Encoding, Working, Remaining])⟩

/-- A jump to `err4` before the decoder's frame buffers are asked for. -/
theorem jump_err4 (within : ∀ r, may r →
      Working cmdl (run.totalfb cmdl) r ∨ r = .handle .dec ∨ r = .capture) (regfbcount : Nat)
    (store : Store Resource Counts) (held : Resource → Bool)
    (tidy : Tidy ⟨regfbcount, 0, 0, run.totalfb cmdl⟩ (Between (WorkingSet run cmdl) may)
      store held) :
    encdecJumps run cmdl .err4 store held :=
  ⟨⟨regfbcount, 0, 0, run.totalfb cmdl⟩, ⟨false, false, false⟩, .onlyFrames rfl,
    tidy.widen (by grind [DecodeTest.KeptSet]) fun r taken => .inl (within r taken)⟩

theorem decode_spec {parts : DecodeTest.Parts} (display : cmdl.dstScheme = .v4l2)
    (shown : parts.shown = true) (i : Nat) :
    Spec (DecodeTest.Has cmdl must may counts parts) (decode run i)
      (fun _ => DecodeTest.Has cmdl must may counts parts) left := by
  have set (r : Resource) (looked : r = .display ∨ r = .v4lRsd) :
      must r ∨ DecodeTest.KeptSet cmdl parts r := by
    refine .inr (.inr (.inr ⟨shown, ?_⟩))
    simpa only [DecodeTest.ShownSet, display] using looked
  have put : Spec (DecodeTest.Has cmdl must may counts parts) (putData run i)
      (fun _ => DecodeTest.Has cmdl must may counts parts) left := by
    unfold putData
    exact Spec.ite (fun _ => deref_between (set .v4lRsd (.inr rfl))) fun _ =>
      Spec.pure fun _ _ start => start
  exact Spec.bind (deref_between (set .display (.inl rfl))) fun _ => put

theorem opened_display : cmdl.opened.dstScheme = cmdl.dstScheme := by
  unfold CmdLine.opened
  split <;> rfl

theorem decodes_spec {enc : Nat} (display : cmdl.dstScheme = .v4l2) :
    Spec (Ready cmdl enc must may) ((List.range run.turns).forM (decode run))
      (fun _ => Leftovers cmdl enc must may) left := by
  refine Spec.any fun counts => Spec.any fun parts => ?_
  intro store held ⟨fits, _, opened, has⟩
  have shown := opened (by simp [CmdLine.shows, display])
  have loop := @Spec.forM Resource Counts Exit _ left (decode run)
    (fun _ => DecodeTest.Has cmdl must may counts parts) run.turns fun i _ =>
      decode_spec display shown i
  refine Spec.relax loop (fun _ _ _ rest => ?_) store held has
  exact ⟨counts, parts, fits, rest⟩

theorem fillHeaders_spec {before : Assertion Resource Counts}
    (leaves : ¬ (run.decoder.mx6x = true ∧ cmdl.format = .mjpg) →
      run.decoder.does .encoderHeaders = false → ∀ store held,
        before store held → left .err3 store held) :
    Spec before (fillHeaders run cmdl) (fun _ => before) left := by
  unfold fillHeaders
  exact Spec.ite (fun _ => Spec.pure fun _ _ start => start) fun once => step_spec (leaves once)

theorem decoderBody_spec (spared : Spared run cmdl) :
    Spec (Tidy ⟨0, 0, 0, run.totalfb cmdl⟩ (Between (WorkingSet run cmdl) fun r =>
        Encoding cmdl (run.totalfb cmdl) r ∨ OfCamera cmdl r)) (decoderBody run cmdl)
      (fun _ => encdecJumps run cmdl .err4) (encdecJumps run cmdl) := by
  have within : ∀ r, Encoding cmdl (run.totalfb cmdl) r ∨ OfCamera cmdl r ∨ r = .handle .dec →
      Working cmdl (run.totalfb cmdl) r ∨ r = .handle .dec ∨ r = .capture := by
    grind [Encoding, Working, Remaining, OfCamera]
  unfold decoderBody
  refine Spec.bind (take_cases (WorkingSet run cmdl) (fun r => Encoding cmdl (run.totalfb cmdl) r ∨
    OfCamera cmdl r ∨ r = .handle .dec) ?_ (fun _ => .inl) (by grind) fun refused => ?_) fun _ => ?_
  · grind [Encoding, Setup, EncodeTest.Setup, DecodeTest.Setup, Frames, Entries, OfFrame, OfMem,
      OfCamera]
  · have closed : cmdl.srcScheme ≠ .v4l2 := fun source =>
      Bool.noConfusion ((spared.opens source).symm.trans refused)
    exact fun _ _ start => ⟨_, true, start.widen (fun _ => id)
      (by grind [Encoding, Remaining, OfCamera])⟩
  refine Spec.bind (fillHeaders_spec fun once fails => jump_err3 fun source =>
    Bool.noConfusion ((spared.headers source once).symm.trans fails)) fun _ => ?_
  refine Spec.bind (step_spec fun fails => jump_err3 fun source =>
    Bool.noConfusion ((spared.capturing source).symm.trans fails)) fun _ => ?_
  have encodes := @Spec.forM Resource Counts Exit _ (encdecJumps run cmdl)
    (fun i => step run.decoder.toSystem (.encode i) .err4)
    (fun _ => Tidy ⟨0, 0, 0, run.totalfb cmdl⟩ (Between (WorkingSet run cmdl) fun r =>
      Encoding cmdl (run.totalfb cmdl) r ∨ OfCamera cmdl r ∨ r = .handle .dec)) 5
    fun i _ => step_spec fun _ => jump_err4 within 0
  refine Spec.bind encodes fun _ => ?_
  refine Spec.bind (DecodeTest.decoderParse_spec (jump_err4 within)) fun _ => ?_
  refine Spec.bind (DecodeTest.takeIf_spec ?_ (jump_err4 within _)) fun _ => ?_
  · grind [Encoding, Setup, EncodeTest.Setup, DecodeTest.Setup, Frames, Entries, OfFrame, OfMem,
      OfCamera]
  have allocated := @DecodeTest.decoderAllocateFramebuffer_spec run.decoder cmdl.opened
    ⟨run.decoder.regfbcount, 0, 0, run.totalfb cmdl⟩ (WorkingSet run cmdl)
    (fun r => Working cmdl (run.totalfb cmdl) r ∨ r = .handle .dec ∨ r = .capture)
    (encdecJumps run cmdl) spared.decoder ?_ ?_
  · refine Spec.bind (allocated.strengthen fun _ _ start => start.widen (fun _ => id)
      (by grind [Working, Remaining, Encoding])) fun opened => ?_
    cases opened with
    | false => exact Spec.quit fun _ _ start => start
    | true => exact decodes_spec (opened_display.trans spared.display)
  · grind [WorkingSet, Read, FramesSet, Working, Remaining, Setup, Frames, EncodeTest.Setup]
  · intro r owned
    have := @working_apart cmdl (run.totalfb cmdl) r owned
    grind [DecodeTest.OfFramebuffers, OfDisplay, OfFrame, OfMem, DecodeTest.OfMvcol]

/-! ### The whole test -/

/-- A jump to `err2` without frame buffers of the encoder. -/
theorem jump_err2 (store : Store Resource Counts) (held : Resource → Bool)
    (tidy : Tidy counts (Between (Read run.encoder cmdl) fun r => Setup cmdl r ∨ r = .handle .enc)
      store held) : encdecJumps run cmdl .err2 store held :=
  ⟨counts, false, tidy.widen (by grind [FramesSet]) (by grind [Remaining])⟩

theorem encdecBody_spec (spared : Spared run cmdl) :
    Spec (Tidy ⟨0, 0, 0, 0⟩ (Between (fun _ => False) fun _ => False)) (encdecBody run cmdl)
      (fun _ => encdecJumps run cmdl .err4) (encdecJumps run cmdl) := by
  have jump_err {must may : Resource → Prop} (kept : ∀ r, Read run.encoder cmdl r → must r)
      (within : ∀ r, may r → EncodeTest.Setup r) (store : Store Resource Counts)
      (held : Resource → Bool) (tidy : Tidy ⟨0, 0, 0, 0⟩ (Between must may) store held) :
      encdecJumps run cmdl .err store held := ⟨_, tidy.widen kept within⟩
  have jump_err1 {may : Resource → Prop} (within : ∀ r, may r → Setup cmdl r)
      (store : Store Resource Counts) (held : Resource → Bool)
      (tidy : Tidy ⟨0, 0, 0, 0⟩ (Between (Read run.encoder cmdl) may) store held) :
      encdecJumps run cmdl .err1 store held :=
    ⟨_, tidy.widen (fun _ => id) fun r taken => .inl (within r taken)⟩
  unfold encdecBody
  refine Spec.bind (take_cases (Read run.encoder cmdl) (fun r => r = .object .enc) id
    (fun _ read => .inr read.2) (by grind) fun refused => jump_err ?_ fun _ => False.elim) fun _ => ?_
  · rintro r ⟨⟨mx6x, mpeg4⟩, -⟩
    exact Bool.noConfusion ((spared.object mx6x mpeg4).symm.trans refused)
  refine Spec.bind (take_between _ (fun r => r = .object .enc ∨ r = .phys (.bitstream .enc))
    (by grind) (fun _ => .inl) (by grind) (jump_err (fun _ => id) (by grind [EncodeTest.Setup])))
    fun _ => ?_
  refine Spec.bind (take_between _ EncodeTest.Setup (by grind) (fun _ => .inl)
    (by grind [EncodeTest.Setup]) (jump_err (fun _ => id) (by grind [EncodeTest.Setup])))
    fun _ => ?_
  refine Spec.bind (take_between _ (fun r => EncodeTest.Setup r ∨ r = .object .dec)
    (by grind [EncodeTest.Setup]) (fun _ => .inl) (fun _ => id)
    (jump_err (fun _ => id) fun _ => id)) fun _ => ?_
  refine Spec.bind (take_between _ (fun r => EncodeTest.Setup r ∨ r = .object .dec ∨
    r = .phys (.bitstream .dec)) (by grind [EncodeTest.Setup]) (fun _ => .inl) (by grind)
    (jump_err1 (by grind [Setup, DecodeTest.Setup]))) fun _ => ?_
  refine Spec.bind (take_between _ (fun r => EncodeTest.Setup r ∨ r = .object .dec ∨
    r = .phys (.bitstream .dec) ∨ r = .virt (.bitstream .dec)) (by grind [EncodeTest.Setup])
    (fun _ => .inl) (by grind) (jump_err1 (by grind [Setup, DecodeTest.Setup]))) fun _ => ?_
  refine Spec.bind (DecodeTest.takeIf_spec (by grind [EncodeTest.Setup])
    (jump_err1 (by grind [Setup, DecodeTest.Setup]))) fun _ => ?_
  have opened := @EncodeTest.encoderOpen_spec run.encoder cmdl ⟨0, 0, 0, 0⟩
    (Read run.encoder cmdl) (Setup cmdl) (encdecJumps run cmdl) .err1 spared.tables
    (by grind [Read, Setup, EncodeTest.Setup])
    (by grind [Setup, EncodeTest.Setup, DecodeTest.Setup, EncodeTest.OfTables])
    (by grind [Setup, EncodeTest.Setup, DecodeTest.Setup]) (jump_err1 fun _ => id)
  refine Spec.bind (opened.strengthen fun _ _ start => start.widen (fun _ => id)
    (by grind [Setup, DecodeTest.Setup])) fun _ => ?_
  refine Spec.bind (EncodeTest.encoderConfigure_spec jump_err2) fun _ => ?_
  refine Spec.bind (EncodeTest.encoderAllocateFramebuffer_spec spared.room spared.camera
    (by grind [Read, Setup, EncodeTest.Setup]) ?_) fun allocated => ?_
  · grind [EncodeTest.OfFramebuffers, OfFrame, OfMem, Setup, EncodeTest.Setup, DecodeTest.Setup]
  · cases allocated with
    | false => exact Spec.quit jump_err2
    | true =>
        refine (decoderBody_spec spared).strengthen fun _ _ start => ?_
        exact start.widen (by grind [WorkingSet])
          (by grind [Encoding, OfCamera, Run.totalfb])

end Specs

/-- Whatever fails, `encdec_test` gives back all that it has taken, and once, where the failures
of `Spared` do not come up. -/
theorem encdecTest_balanced (run : Run) (cmdl : CmdLine) (spared : Spared run cmdl) :
    Balanced (encdecTest run cmdl initial).log ∧
      ∃ value, (encdecTest run cmdl initial).value = .ok value := by
  refine @Spec.balanced _ _ _ _ _ _ (Tidy ⟨0, 0, 0, 0⟩ (Between (fun _ => False) fun _ => False))
    _ ?_ ?_
  · refine Spec.handle (encdecBody_spec spared) (fun _ => cleanUpErr4_spec) fun label => ?_
    cases label with
    | err => exact Spec.any fun counts => EncodeTest.cleanUpErr_spec
    | err1 => exact cleanUpErr1_spec
    | err2 => exact cleanUpErr2_spec
    | err3 => exact cleanUpErr3_spec
    | err4 => exact cleanUpErr4_spec
    | segfault => exact fun _ _ start => start.elim
    | _ => exact fun _ _ start => start.elim
  · exact ⟨rfl, rfl, nofun, nofun⟩

/-- There is no second frame buffer for the display. -/
def smallDisplay : Run where
  decoder := {
    gives := fun r => decide (r ≠ .v4lBuf 1)
    does := fun _ => true
    mx6x := true
    mx27 := false
    minfbcount := 2
    extendedFbcount := 2
    interlace := false }
  minFrameBufferCount := 2
  turns := 3

def camera : CmdLine := ⟨.avc, .v4l2, .v4l2, 0, false, false, .linear, 0⟩

theorem encdecTest_balanced_camera :
    Balanced (encdecTest smallDisplay camera initial).log ∧
      ∃ value, (encdecTest smallDisplay camera initial).value = .ok value :=
  encdecTest_balanced smallDisplay camera
    ⟨nofun, nofun, fun _ => ⟨rfl, rfl, rfl⟩, fun _ => rfl, fun _ _ => rfl, fun _ => rfl, by decide,
      rfl, nofun, fun _ _ => rfl, fun _ => ⟨fun _ => rfl, rfl, fun _ _ => rfl, fun _ _ _ => rfl,
        fun _ _ => rfl, by decide⟩, nofun, by decide⟩

/-- Where the decoder cannot be opened, the camera stays open. -/
example : (settle nothing (encdecTest { smallDisplay with
    decoder := { smallDisplay.decoder with gives := fun r => decide (r ≠ .handle .dec) } }
    camera initial).log).map (fun held => held .capture) = some true := by decide

/-- Into a file, `decode` looks into a display that is not there. -/
example : (encdecTest smallDisplay { camera with dstScheme := .file } initial).value =
    .error .segfault := by rfl

end ImxTest.Vpu.EncdecTest
