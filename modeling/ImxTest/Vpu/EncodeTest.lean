import ImxTest.Vpu.Buffers

/-!
# What `encode_test` leaves behind

The encoder takes its source pictures from a file or from a camera, whose descriptor is a
variable of `capture.c`: `encoder_allocate_framebuffer` opens it and only the end of
`encoder_start` closes it.
-/

set_option autoImplicit false

namespace ImxTest.Vpu.EncodeTest

open ImxTest.Lib.Traced
open ImxTest.Lib.Ledger
open ImxTest.Vpu.Buffers

/-- What the system answers, and what the encoder asks for. -/
structure Run extends System where
  minFrameBufferCount : Nat

section Functions
variable (run : Run) (cmdl : CmdLine)

/-! ## The camera -/

/-- A call whose failure closes the camera.  Some leave `cap_fd` as it is, which is not read
again. -/
def stepOrClose (one : Step) : Routine Unit :=
  if run.does one then pure ()
  else do
    release .capture
    quit .err1

def v4lCaptureSetup : Routine Unit := do
  match ← ask fun store => store.ptr .capture with
  | true => quit .err1
  | false => do
      take (run.gives .capture) .capture .err1
      step run.toSystem .chipIdent .err1
      step run.toSystem .captureControl .err1
      step run.toSystem .captureMode .err1
      stepOrClose run .captureParm
      stepOrClose run .captureInput
      stepOrClose run .captureCrop
      stepOrClose run .captureFormat
      stepOrClose run .captureRequest

/-! ## The encoder -/

def allocTables (exit : Exit) : Routine Unit :=
  if run.mx6x = false ∧ cmdl.format = .mjpg then do
    take (run.gives .qMatTable) .qMatTable exit
    match ← acquire (run.gives .huffTable) .huffTable with
    | true => pure ()
    | false => do
        release .qMatTable
        quit exit
  else pure ()

def freeTables : Routine Unit :=
  if cmdl.format = .mjpg then do
    release .qMatTable
    release .huffTable
  else pure ()

/-- `encoder_open`.  Its tables are local, so that nothing frees them behind it. -/
def encoderOpen (exit : Exit) : Routine Unit := do
  allocTables run cmdl exit
  match ← acquire (run.gives (.handle .enc)) (.handle .enc) with
  | true => pure ()
  | false => do
      freeTables cmdl
      quit exit

def setSearchRam (exit : Exit) : Routine Unit :=
  if run.mx27 then step run.toSystem .searchRam exit else pure ()

/-- `encoder_configure`, whose reports are never enabled. -/
def encoderConfigure (exit : Exit) : Routine Unit := do
  setSearchRam run exit
  step run.toSystem .encInitialInfo exit

/-- The buffers beside those that the encoder asks for, without the one for the source. -/
def extrafbcount : Nat :=
  if run.mx6x then
    if cmdl.format = .avc ∧ cmdl.mp4H264Class ≠ 0 then 4
    else if cmdl.format = .mjpg then 0
    else 2
  else 0

/-- Its identifier is the number of the buffers before it. -/
def srcFbid : Nat := run.minFrameBufferCount + extrafbcount run cmdl

def allocSource : Routine Unit :=
  if cmdl.srcScheme = .v4l2 then v4lCaptureSetup run
  else allocFrame run.toSystem .enc .err1 (srcFbid run cmdl)

def allocateBody : Routine Unit := do
  assign fun counts => { counts with encTotalfb := srcFbid run cmdl + 1 }
  take (run.gives (.fb .enc)) (.fb .enc) .returned
  match ← acquire (run.gives (.pfbpool .enc)) (.pfbpool .enc) with
  | false => do
      release (.fb .enc)
      quit .returned
  | true => do
      -- with a tiled map the first ones are tiled
      (List.range (srcFbid run cmdl)).forM (allocFrame run.toSystem .enc .err1)
      step run.toSystem .encRegisterFrameBuffer .err1
      allocSource run cmdl

def freeAfterFailure : Routine Unit := do
  let totalfb ← ask fun store => store.vars.encTotalfb
  (List.range totalfb).forM fun i => framebufFree (.frame .enc i)
  release (.fb .enc)
  release (.pfbpool .enc)

def encoderAllocateFramebuffer : Routine Bool :=
  handle (allocateBody run cmdl) fun
    | .ok _ => pure true
    | .error .segfault => quit .segfault
    | .error .returned => pure false
    | .error _ => do
        freeAfterFailure
        pure false

def freeFrames : Routine Unit := do
  match ← ask fun store => store.ptr (.pfbpool .enc) with
  | true => do
      let totalfb ← ask fun store => store.vars.encTotalfb
      (List.range totalfb).forM fun i => framebufFree (.frame .enc i)
  | false => pure ()

def encoderFreeFramebuffer : Routine Unit := do
  freeFrames
  release (.fb .enc)
  release (.pfbpool .enc)

/-- `encoder_start`.  It returns at once where it fails before the first frame, and where a
frame hangs. -/
def encoderStart : Routine Unit :=
  if cmdl.srcScheme = .v4l2 ∧ run.does .encoderHeaders = true ∧
      run.does .startCapturing = true ∧ run.does .encodeFrames = true then
    release .capture
  else pure ()

/-! ## `encode_test` -/

def refuse (condition : Bool) (exit : Exit) : Routine Unit :=
  if condition then quit exit else pure ()

/-- `encode_test` up to its labels.  The scratch buffer is left out, whose condition
`mp4_dataPartitionEnable` is never set. -/
def encodeBody : Routine Unit := do
  take (run.gives (.object .enc)) (.object .enc) .err
  take (run.gives (.phys (.bitstream .enc))) (.phys (.bitstream .enc)) .err
  take (run.gives (.virt (.bitstream .enc))) (.virt (.bitstream .enc)) .err
  refuse (cmdl.mapType ≠ .linear && cmdl.format = .mjpg) .err
  encoderOpen run cmdl .err
  encoderConfigure run .err1
  match ← encoderAllocateFramebuffer run cmdl with
  | false => quit .err1
  | true => do
      encoderStart run cmdl
      encoderFreeFramebuffer

def readPartition : Routine Unit :=
  if run.mx6x ∧ cmdl.format = .mpeg4 then deref (.object .enc) .segfault else pure ()

def cleanUpErr : Routine Unit := do
  readPartition run cmdl
  giveBack (.virt (.bitstream .enc))
  giveBack (.phys (.bitstream .enc))
  giveBack (.object .enc)

def cleanUpErr1 : Routine Unit := do
  release (.handle .enc)
  cleanUpErr run cmdl

def encodeTest : Routine Unit :=
  handle (encodeBody run cmdl) fun
    | .ok _ => cleanUpErr1 run cmdl
    | .error .segfault => quit .segfault
    | .error .err1 => cleanUpErr1 run cmdl
    | .error _ => cleanUpErr run cmdl

end Functions

/-! ## What can be left at the labels -/

def OfFramebuffers (r : Resource) : Prop :=
  r = .fb .enc ∨ r = .pfbpool .enc ∨ ∃ i, OfFrame .enc i r

theorem OfFramebuffers.fb : OfFramebuffers (.fb .enc) := .inl rfl

theorem OfFramebuffers.pool : OfFramebuffers (.pfbpool .enc) := .inr (.inl rfl)

theorem OfFramebuffers.frame {i : Nat} {r : Resource} (owned : OfFrame .enc i r) :
    OfFramebuffers r :=
  .inr (.inr ⟨i, owned⟩)

/-- What `encoder_allocate_framebuffer` leaves, if it has succeeded. -/
def Frames (pool : Bool) (n : Nat) (r : Resource) : Prop :=
  pool = true ∧ (r = .fb .enc ∨ r = .pfbpool .enc ∨ Entries (OfFrame .enc) 0 n r)

def FramesSet (pool : Bool) (r : Resource) : Prop := pool = true ∧ r = .pfbpool .enc

/-- The calls behind which the camera stays open when they fail. -/
structure CameraSpared (sys : System) : Prop where
  chipIdent : sys.does .chipIdent = true
  control : sys.does .captureControl = true
  mode : sys.does .captureMode = true

section Specs
variable {run : Run} {cmdl : CmdLine} {counts : Counts} {must may : Resource → Prop}
  {left : Exit → Assertion Resource Counts}

theorem stepOrClose_spec {one : Step} (inside : ∀ r, must r → may r) (apart : ¬ may .capture)
    (leaves : ∀ store held, Tidy counts (Between must may) store held → left .err1 store held) :
    Spec (Tidy counts (Between must fun r => may r ∨ r = .capture)) (stepOrClose run one)
      (fun _ => Tidy counts (Between must fun r => may r ∨ r = .capture)) left := by
  unfold stepOrClose
  refine Spec.ite (fun _ => Spec.pure fun _ _ start => start) fun _ => ?_
  refine Spec.bind (release_between must may (by grind) (by grind)) fun _ => ?_
  exact Spec.quit leaves

theorem v4lCaptureSetup_spec (spared : CameraSpared run.toSystem) (inside : ∀ r, must r → may r)
    (apart : ¬ may .capture)
    (leaves : ∀ store held, Tidy counts (Between must may) store held → left .err1 store held) :
    Spec (Tidy counts (Between must may)) (v4lCaptureSetup run)
      (fun _ => Tidy counts (Between must fun r => may r ∨ r = .capture)) left := by
  unfold v4lCaptureSetup
  refine Spec.askUnset apart ?_
  refine Spec.bind (take_between must (fun r => may r ∨ r = .capture) apart (fun _ => .inl)
    (fun _ set => set) leaves) fun _ => ?_
  refine Spec.bind (step_given spared.chipIdent) fun _ => ?_
  refine Spec.bind (step_given spared.control) fun _ => ?_
  refine Spec.bind (step_given spared.mode) fun _ => ?_
  have closes (one : Step) := @stepOrClose_spec run counts must may left one inside apart leaves
  exact (closes _).bind fun _ => (closes _).bind fun _ => (closes _).bind fun _ =>
    (closes _).bind fun _ => closes _

def OfTables (r : Resource) : Prop := r = .qMatTable ∨ r = .huffTable

theorem allocTables_spec {exit : Exit} (inside : ∀ r, must r → may r)
    (apart : ∀ r, OfTables r → ¬ may r)
    (leaves : ∀ store held, Tidy counts (Between must may) store held → left exit store held) :
    Spec (Tidy counts (Between must may)) (allocTables run cmdl exit)
      (fun _ => Tidy counts (Between must fun r =>
        may r ∨ (run.mx6x = false ∧ cmdl.format = .mjpg ∧ OfTables r))) left := by
  have noQ := apart .qMatTable (.inl rfl)
  have noH := apart .huffTable (.inr rfl)
  unfold allocTables
  refine Spec.ite (fun mjpg => ?_) fun _ => ?_
  · refine Spec.bind (take_between must (fun r => may r ∨ r = .qMatTable) noQ (fun _ => .inl)
      (fun _ set => set) leaves) fun _ => ?_
    refine Spec.acquire must _ (by grind) (fun _ => .inl) (by grind [OfTables])
      (fun _ => Spec.pure fun _ _ start => start) fun _ => ?_
    refine Spec.bind (release_between must may (by grind) (by grind)) fun _ => ?_
    exact Spec.quit leaves
  · exact Spec.pure fun _ _ start => start.widen (fun _ => id) fun _ => .inl

theorem freeTables_spec {tables : Prop} (mjpg : tables → cmdl.format = .mjpg)
    (inside : ∀ r, must r → may r) (apart : ∀ r, OfTables r → ¬ may r) :
    Spec (Tidy counts (Between must fun r => may r ∨ (tables ∧ OfTables r))) (freeTables cmdl)
      (fun _ => Tidy counts (Between must may)) left := by
  unfold freeTables
  refine Spec.ite (fun _ => ?_) fun other => ?_
  · refine Spec.bind (release_between must (fun r => may r ∨ r = .huffTable)
      (by grind [OfTables]) (by grind [OfTables])) fun _ => ?_
    exact release_between _ _ (by grind [OfTables]) (by grind)
  · exact Spec.pure fun _ _ start => start.widen (fun _ => id) (by grind)

theorem encoderOpen_spec {exit : Exit}
    (tables : run.mx6x = false → cmdl.format = .mjpg → run.gives (.handle .enc) = false)
    (inside : ∀ r, must r → may r) (apart : ∀ r, OfTables r → ¬ may r) (new : ¬ may (.handle .enc))
    (leaves : ∀ store held, Tidy counts (Between must may) store held → left exit store held) :
    Spec (Tidy counts (Between must may)) (encoderOpen run cmdl exit)
      (fun _ => Tidy counts (Between must fun r => may r ∨ r = .handle .enc)) left := by
  unfold encoderOpen
  refine Spec.bind (allocTables_spec inside apart leaves) fun _ => ?_
  refine Spec.acquire must _ (by grind [OfTables]) (fun _ => .inl) (fun _ set => set)
    (fun given => ?_) fun _ => ?_
  · exact Spec.pure fun _ _ start => start.widen (fun _ => id) (by grind)
  · refine Spec.bind (@freeTables_spec cmdl counts must may left
      (run.mx6x = false ∧ cmdl.format = .mjpg) And.right inside apart |>.strengthen ?_) fun _ => ?_
    · exact fun _ _ start => start.widen (fun _ => id) (by grind)
    · exact Spec.quit leaves

theorem encoderConfigure_spec {before : Assertion Resource Counts} {exit : Exit}
    (leaves : ∀ store held, before store held → left exit store held) :
    Spec before (encoderConfigure run exit) (fun _ => before) left := by
  have searchRam : Spec before (setSearchRam run exit) (fun _ => before) left := by
    unfold setSearchRam
    exact Spec.ite (fun _ => step_spec fun _ => leaves) fun _ => Spec.pure fun _ _ start => start
  exact searchRam.bind fun _ => step_spec fun _ => leaves

/-! ### `encoder_allocate_framebuffer` and `encoder_free_framebuffer` -/

def Allocated (cmdl : CmdLine) (must may : Resource → Prop) (counts : Counts) :
    Assertion Resource Counts :=
  Tidy counts (Between (fun r => must r ∨ FramesSet true r) fun r =>
    may r ∨ Frames true counts.encTotalfb r ∨ (cmdl.srcScheme = .v4l2 ∧ r = .capture))

def allocateJumps (must may : Resource → Prop) (counts : Counts) :
    Exit → Assertion Resource Counts
  | .returned => Tidy counts (Between must may)
  | .err1 => Tidy counts (Between (fun r => must r ∨ FramesSet true r)
      fun r => may r ∨ Frames true counts.encTotalfb r)
  | _ => fun _ _ => False

/-- A frame buffer, where the ones before it are there. -/
theorem allocFrames_turn (room : counts.encTotalfb ≤ maxBufNum) (inside : ∀ r, must r → may r)
    (apart : ∀ r, OfFramebuffers r → ¬ may r) {i : Nat} (below : i < counts.encTotalfb) :
    Spec (Tidy counts (Between (fun r => must r ∨ FramesSet true r)
        fun r => (may r ∨ r = .fb .enc ∨ r = .pfbpool .enc) ∨ Entries (OfFrame .enc) 0 i r))
      (allocFrame run.toSystem .enc .err1 i)
      (fun _ => Tidy counts (Between (fun r => must r ∨ FramesSet true r)
        fun r => (may r ∨ r = .fb .enc ∨ r = .pfbpool .enc) ∨ Entries (OfFrame .enc) 0 (i + 1) r))
      (allocateJumps must may counts) := by
  refine allocFrame_spec below room (by grind [FramesSet]) ?_ fun store held start => ?_
  · intro i r owned
    have := apart r (.frame owned)
    grind [OfFrame, OfMem]
  · exact start.widen (fun _ => id) (by grind [Frames])

theorem allocSource_spec {n : Nat} (total : counts.encTotalfb = n + 1)
    (source : srcFbid run cmdl = n) (room : counts.encTotalfb ≤ maxBufNum)
    (camera : cmdl.srcScheme = .v4l2 → CameraSpared run.toSystem) (inside : ∀ r, must r → may r)
    (apart : ∀ r, OfFramebuffers r ∨ r = .capture → ¬ may r) :
    Spec (Tidy counts (Between (fun r => must r ∨ FramesSet true r)
        fun r => (may r ∨ r = .fb .enc ∨ r = .pfbpool .enc) ∨ Entries (OfFrame .enc) 0 n r))
      (allocSource run cmdl) (fun _ => Allocated cmdl must may counts)
      (allocateJumps must may counts) := by
  unfold allocSource
  refine Spec.ite (fun scheme => ?_) fun _ => ?_
  · have set := @v4lCaptureSetup_spec run counts (fun r => must r ∨ FramesSet true r)
      (fun r => (may r ∨ r = .fb .enc ∨ r = .pfbpool .enc) ∨ Entries (OfFrame .enc) 0 n r)
      (allocateJumps must may counts) (camera scheme) (by grind [FramesSet]) ?_ ?_
    · exact set.relax fun _ _ _ reached =>
        reached.widen (fun _ => id) (by grind [Frames, Entries])
    · have := apart .capture (.inr rfl)
      grind [Entries, OfFrame, OfMem]
    · exact fun _ _ start => start.widen (fun _ => id) (by grind [Frames, Entries])
  · rw [source]
    have turn := @allocFrames_turn run counts must may room inside
      (fun r owned => apart r (.inl owned)) n (by omega)
    exact turn.relax fun _ _ _ reached => reached.widen (fun _ => id) (by grind [Frames])

theorem allocateBody_spec (room : srcFbid run cmdl + 1 ≤ maxBufNum)
    (camera : cmdl.srcScheme = .v4l2 → CameraSpared run.toSystem) (inside : ∀ r, must r → may r)
    (apart : ∀ r, OfFramebuffers r ∨ r = .capture → ¬ may r) :
    Spec (Tidy counts (Between must may)) (allocateBody run cmdl)
      (fun _ => Allocated cmdl must may { counts with encTotalfb := srcFbid run cmdl + 1 })
      (allocateJumps must may { counts with encTotalfb := srcFbid run cmdl + 1 }) := by
  have noFb := apart (.fb .enc) (.inl .fb)
  have noPool := apart (.pfbpool .enc) (.inl .pool)
  unfold allocateBody
  refine Spec.bind assign_tidy fun _ => ?_
  refine Spec.bind (take_between must (fun r => may r ∨ r = .fb .enc) noFb (fun _ => .inl)
    (fun _ set => set) fun _ _ start => start) fun _ => ?_
  refine Spec.acquire (fun r => must r ∨ FramesSet true r)
    (fun r => may r ∨ r = .fb .enc ∨ r = .pfbpool .enc) (by grind) (by grind [FramesSet]) (by grind)
    (fun _ => ?_) fun _ => ?_
  · have loop := @Spec.forM Resource Counts Exit _
      (allocateJumps must may { counts with encTotalfb := srcFbid run cmdl + 1 })
      (allocFrame run.toSystem .enc .err1)
      (fun i => Tidy { counts with encTotalfb := srcFbid run cmdl + 1 }
        (Between (fun r => must r ∨ FramesSet true r) fun r =>
          (may r ∨ r = .fb .enc ∨ r = .pfbpool .enc) ∨ Entries (OfFrame .enc) 0 i r))
      (srcFbid run cmdl) fun i below =>
        allocFrames_turn room inside (fun r owned => apart r (.inl owned)) (Nat.lt_succ_of_lt below)
    refine Spec.bind (loop.strengthen fun _ _ start => start.widen (fun _ => id) (by grind))
      fun _ => ?_
    refine Spec.bind (step_spec fun _ _ _ start => start.widen (fun _ => id) ?_) fun _ => ?_
    · grind [Frames, Entries]
    · exact allocSource_spec rfl rfl room camera inside apart
  · refine Spec.bind (release_between must may (by grind) (by grind)) fun _ => ?_
    exact Spec.quit fun _ _ start => start

theorem releaseFrames_spec {pool : Bool} (inside : ∀ r, must r → may r)
    (apart : ∀ r, OfFramebuffers r → ¬ may r) :
    Spec (Tidy counts (Between (fun r => must r ∨ FramesSet pool r)
        fun r => may r ∨ (pool = true ∧ (r = .fb .enc ∨ r = .pfbpool .enc))))
      (do release (.fb .enc); release (.pfbpool .enc))
      (fun _ => Tidy counts (Between must may)) left := by
  have noFb := apart (.fb .enc) .fb
  have noPool := apart (.pfbpool .enc) .pool
  refine Spec.bind (release_between must (fun r => may r ∨ r = .pfbpool .enc) (by grind)
    (by grind)) fun _ => ?_
  exact release_between _ _ (by grind) (by grind)

theorem freeFrames_all (inside : ∀ r, must r → may r) (apart : ∀ r, OfFramebuffers r → ¬ may r) :
    Spec (Tidy counts (Between (fun r => must r ∨ FramesSet true r)
        fun r => may r ∨ Frames true counts.encTotalfb r))
      ((List.range counts.encTotalfb).forM fun i => framebufFree (.frame .enc i))
      (fun _ => Tidy counts (Between (fun r => must r ∨ FramesSet true r)
        fun r => may r ∨ (true = true ∧ (r = .fb .enc ∨ r = .pfbpool .enc)))) left := by
  refine (freeFrames_spec (by grind [FramesSet]) ?_).strengthen fun _ _ start =>
    start.widen (fun _ => id) (by grind [Frames])
  intro i r owned
  have := apart r (.frame owned)
  grind [OfFrame, OfMem]

theorem freeAfterFailure_spec (inside : ∀ r, must r → may r)
    (apart : ∀ r, OfFramebuffers r → ¬ may r) :
    Spec (allocateJumps must may counts .err1) freeAfterFailure
      (fun _ => Tidy counts (Between must may)) left := by
  unfold freeAfterFailure
  refine Spec.askVars Counts.encTotalfb ?_
  exact Spec.bind (freeFrames_all inside apart) fun _ => releaseFrames_spec inside apart

theorem encoderAllocateFramebuffer_spec (room : srcFbid run cmdl + 1 ≤ maxBufNum)
    (camera : cmdl.srcScheme = .v4l2 → CameraSpared run.toSystem) (inside : ∀ r, must r → may r)
    (apart : ∀ r, OfFramebuffers r ∨ r = .capture → ¬ may r) :
    Spec (Tidy counts (Between must may)) (encoderAllocateFramebuffer run cmdl)
      (fun allocated =>
        if allocated then
          Allocated cmdl must may { counts with encTotalfb := srcFbid run cmdl + 1 }
        else Tidy { counts with encTotalfb := srcFbid run cmdl + 1 } (Between must may))
      left := by
  refine Spec.handle (allocateBody_spec room camera inside apart) (fun _ => ?_) fun label => ?_
  · exact Spec.pure fun _ _ start => start
  · cases label with
    | returned => exact Spec.pure fun _ _ start => start
    | err1 =>
        refine Spec.bind (freeAfterFailure_spec inside fun r owned => apart r (.inl owned))
          fun _ => ?_
        exact Spec.pure fun _ _ start => start
    | segfault => exact fun _ _ start => start.elim
    | _ => exact fun _ _ start => start.elim

theorem encoderFreeFramebuffer_spec {pool : Bool} (inside : ∀ r, must r → may r)
    (apart : ∀ r, OfFramebuffers r → ¬ may r) :
    Spec (Tidy counts (Between (fun r => must r ∨ FramesSet pool r)
        fun r => may r ∨ Frames pool counts.encTotalfb r)) encoderFreeFramebuffer
      (fun _ => Tidy counts (Between must may)) left := by
  unfold encoderFreeFramebuffer
  have freed : Spec (Tidy counts (Between (fun r => must r ∨ FramesSet pool r)
        fun r => may r ∨ Frames pool counts.encTotalfb r)) freeFrames
      (fun _ => Tidy counts (Between (fun r => must r ∨ FramesSet pool r)
        fun r => may r ∨ (pool = true ∧ (r = .fb .enc ∨ r = .pfbpool .enc)))) left := by
    unfold freeFrames
    cases pool with
    | true =>
        refine Spec.askSet (by grind [FramesSet]) ?_
        exact Spec.askVars Counts.encTotalfb (freeFrames_all inside apart)
    | false =>
        have noPool := apart (.pfbpool .enc) .pool
        refine Spec.askUnset (by grind [Frames]) (Spec.pure fun _ _ start => ?_)
        exact start.widen (fun _ => id) (by grind [Frames])
  exact freed.bind fun _ => releaseFrames_spec inside apart

/-! ### `encode_test` -/

def Setup (r : Resource) : Prop :=
  r = .object .enc ∨ r = .phys (.bitstream .enc) ∨ r = .virt (.bitstream .enc)

structure Spared (run : Run) (cmdl : CmdLine) : Prop where
  object : run.mx6x = true → cmdl.format = .mpeg4 → run.gives (.object .enc) = true
  /-- The tables of an open MJPG encoder are not freed. -/
  tables : run.mx6x = false → cmdl.format = .mjpg → run.gives (.handle .enc) = false
  camera : cmdl.srcScheme = .v4l2 → CameraSpared run.toSystem
  /-- What `encoder_start` leaves by before it stops the camera. -/
  start : cmdl.srcScheme = .v4l2 → run.does .encoderHeaders = true ∧
    run.does .startCapturing = true ∧ run.does .encodeFrames = true
  room : srcFbid run cmdl + 1 ≤ maxBufNum

theorem encoderStart_spec (start : cmdl.srcScheme = .v4l2 → run.does .encoderHeaders = true ∧
      run.does .startCapturing = true ∧ run.does .encodeFrames = true)
    (inside : ∀ r, must r → may r) (apart : ¬ may .capture) :
    Spec (Tidy counts (Between must fun r => may r ∨ (cmdl.srcScheme = .v4l2 ∧ r = .capture)))
      (encoderStart run cmdl) (fun _ => Tidy counts (Between must may)) left := by
  unfold encoderStart
  refine Spec.ite (fun _ => release_between _ _ (by grind) (by grind)) fun other => ?_
  exact Spec.pure fun _ _ begun => begun.widen (fun _ => id) (by grind)

/-- The object is read by the clean-up. -/
def Read (run : Run) (cmdl : CmdLine) (r : Resource) : Prop :=
  (run.mx6x = true ∧ cmdl.format = .mpeg4) ∧ r = .object .enc

def encodeJumps (run : Run) (cmdl : CmdLine) : Exit → Assertion Resource Counts
  | .err => fun store held => ∃ counts,
      Tidy counts (Between (Read run cmdl) Setup) store held
  | .err1 => fun store held => ∃ counts,
      Tidy counts (Between (Read run cmdl) fun r => Setup r ∨ r = .handle .enc) store held
  | _ => fun _ _ => False

theorem refuse_spec {before : Assertion Resource Counts} {condition : Bool} {exit : Exit}
    (leaves : ∀ store held, before store held → left exit store held) :
    Spec before (refuse condition exit) (fun _ => before) left := by
  unfold refuse
  exact Spec.ite (fun _ => Spec.quit leaves) fun _ => Spec.pure fun _ _ start => start

theorem opened_apart {r : Resource} (owned : OfFramebuffers r ∨ r = .capture) :
    ¬ (Setup r ∨ r = .handle .enc) := by
  grind [OfFramebuffers, OfFrame, OfMem, Setup]

theorem encodeBody_spec (spared : Spared run cmdl) :
    Spec (Tidy ⟨0, 0, 0, 0⟩ (Between (fun _ => False) fun _ => False)) (encodeBody run cmdl)
      (fun _ => encodeJumps run cmdl .err1) (encodeJumps run cmdl) := by
  have jump_err {must may : Resource → Prop} (kept : ∀ r, Read run cmdl r → must r)
      (within : ∀ r, may r → Setup r) (store : Store Resource Counts) (held : Resource → Bool)
      (tidy : Tidy ⟨0, 0, 0, 0⟩ (Between must may) store held) :
      encodeJumps run cmdl .err store held := ⟨_, tidy.widen kept within⟩
  have jump_err1 {counts : Counts} (store : Store Resource Counts) (held : Resource → Bool)
      (tidy : Tidy counts (Between (fun r => r = .object .enc)
        fun r => Setup r ∨ r = .handle .enc) store held) :
      encodeJumps run cmdl .err1 store held := ⟨_, tidy.widen (fun _ => And.right) fun _ => id⟩
  unfold encodeBody
  refine Spec.bind (take_cases (fun r => r = .object .enc) (fun r => r = .object .enc) id
    (fun _ => .inr) (by grind) fun refused => jump_err ?_ fun _ => False.elim) fun _ => ?_
  · rintro r ⟨⟨mx6x, mpeg4⟩, -⟩
    exact Bool.noConfusion ((spared.object mx6x mpeg4).symm.trans refused)
  refine Spec.bind (take_between _ (fun r => r = .object .enc ∨ r = .phys (.bitstream .enc))
    (by grind) (fun _ => .inl) (by grind) (jump_err (by grind [Read]) (by grind [Setup])))
    fun _ => ?_
  refine Spec.bind (take_between _ Setup (by grind) (fun _ => .inl) (by grind [Setup])
    (jump_err (by grind [Read]) (by grind [Setup]))) fun _ => ?_
  refine Spec.bind (refuse_spec (jump_err (by grind [Read]) fun _ => id)) fun _ => ?_
  refine Spec.bind (encoderOpen_spec spared.tables (by grind [Setup]) (by grind [Setup, OfTables])
    (by grind [Setup]) (jump_err (by grind [Read]) fun _ => id)) fun _ => ?_
  refine Spec.bind (encoderConfigure_spec jump_err1) fun _ => ?_
  refine Spec.bind (encoderAllocateFramebuffer_spec spared.room spared.camera (by grind [Setup])
    fun _ => opened_apart) fun allocated => ?_
  cases allocated with
  | false => exact Spec.quit jump_err1
  | true =>
      have started := @encoderStart_spec run cmdl ⟨0, 0, 0, srcFbid run cmdl + 1⟩
        (fun r => r = .object .enc ∨ FramesSet true r)
        (fun r => (Setup r ∨ r = .handle .enc) ∨ Frames true (srcFbid run cmdl + 1) r)
        (encodeJumps run cmdl) spared.start (by grind [FramesSet, Frames, Setup])
        (by grind [Setup, Frames, Entries, OfFrame, OfMem])
      refine Spec.bind (started.strengthen fun _ _ start => ?_) fun _ => ?_
      · exact start.widen (fun _ => id) (by grind)
      · exact (encoderFreeFramebuffer_spec (by grind [Setup]) fun r owned =>
          opened_apart (.inl owned)).relax fun _ => jump_err1

theorem cleanUpErr_winding :
    Spec (Winding (Read run cmdl) Setup) (cleanUpErr run cmdl) (fun _ _ held => held = nothing)
      left := by
  have read : Spec (Winding (Read run cmdl) Setup) (readPartition run cmdl)
      (fun _ => Winding (Read run cmdl) Setup) left := by
    unfold readPartition
    exact Spec.ite (fun reads => deref_winding ⟨reads, rfl⟩ (.inl rfl)) fun _ =>
      Spec.pure fun _ _ start => start
  have rest : Spec (Winding (Read run cmdl) Setup) (cleanUpErr run cmdl)
      (fun _ => Winding (Read run cmdl) fun _ => False) left := by
    unfold cleanUpErr
    refine Spec.bind read fun _ => ?_
    refine Spec.bind (@giveBack_winding _ _ _ _ _ _
      (fun r => r = .object .enc ∨ r = .phys (.bitstream .enc)) _ _ (by grind [Setup])
      (by grind [Setup])) fun _ => ?_
    refine Spec.bind (@giveBack_winding _ _ _ _ _ _ (fun r => r = .object .enc) _ _ (by grind)
      (by grind)) fun _ => ?_
    exact giveBack_winding rfl (by grind)
  exact rest.relax fun _ _ _ reached => reached.nothing fun _ => id

theorem cleanUpErr_spec :
    Spec (Tidy counts (Between (Read run cmdl) Setup)) (cleanUpErr run cmdl)
      (fun _ _ held => held = nothing) left :=
  cleanUpErr_winding.strengthen fun _ _ start => start.winding

theorem cleanUpErr1_spec :
    Spec (encodeJumps run cmdl .err1) (cleanUpErr1 run cmdl) (fun _ _ held => held = nothing)
      left := by
  refine Spec.any fun counts => ?_
  unfold cleanUpErr1
  refine Spec.bind (release_between (Read run cmdl) Setup (by grind [Read]) (by grind)) fun _ => ?_
  exact cleanUpErr_spec

end Specs

/-- Whatever fails, `encode_test` gives back all that it has taken, and once, where the failures
of `Spared` do not come up. -/
theorem encodeTest_balanced (run : Run) (cmdl : CmdLine) (spared : Spared run cmdl) :
    Balanced (encodeTest run cmdl initial).log ∧
      ∃ value, (encodeTest run cmdl initial).value = .ok value := by
  refine @Spec.balanced _ _ _ _ _ _ (Tidy ⟨0, 0, 0, 0⟩ (Between (fun _ => False) fun _ => False))
    _ ?_ ?_
  · refine Spec.handle (encodeBody_spec spared) (fun _ => cleanUpErr1_spec) fun label => ?_
    cases label with
    | err1 => exact cleanUpErr1_spec
    | err => exact Spec.any fun counts => cleanUpErr_spec
    | segfault => exact fun _ _ start => start.elim
    | _ => exact fun _ _ start => start.elim
  · exact ⟨rfl, rfl, nofun, nofun⟩

def failing (call : Step) : Run where
  gives := fun _ => true
  does := fun one => decide (one ≠ call)
  mx6x := true
  mx27 := false
  minFrameBufferCount := 2

def fromCamera : CmdLine := ⟨.mpeg4, .v4l2, .file, 0, false, false, .linear, 0⟩

theorem encodeTest_balanced_camera :
    Balanced (encodeTest (failing .captureRequest) fromCamera initial).log ∧
      ∃ value, (encodeTest (failing .captureRequest) fromCamera initial).value = .ok value :=
  encodeTest_balanced (failing .captureRequest) fromCamera
    ⟨fun _ _ => rfl, nofun, fun _ => ⟨rfl, rfl, rfl⟩, fun _ => ⟨rfl, rfl, rfl⟩, by decide⟩

/-- Where it has no picture of the size, it stays open. -/
example : (settle nothing (encodeTest (failing .captureMode) fromCamera initial).log).map
    (fun held => held .capture) = some true := by decide

end ImxTest.Vpu.EncodeTest
