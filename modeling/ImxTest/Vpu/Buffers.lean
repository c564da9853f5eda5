import ImxTest.Lib.Ledger
import ImxTest.Vpu.BufQueue
import ImxTest.Vpu.TranscodeTest

/-!
# What the tests take from the system

The buffers, devices and objects that decoder, encoder, camera and display take, with the
functions of `fb.c` and `display.c` that take them and give them back.  What the system
answers is an oracle, so that every call can fail on its own.
-/

set_option autoImplicit false

namespace ImxTest.Vpu.Buffers

open ImxTest.Lib.Traced
open ImxTest.Lib.Ledger
open ImxTest.Vpu.TranscodeTest (Format Scheme)

/-! ## The command line -/

/-- `-y` takes any number; three of them have a name. -/
inductive MapType where
  | linear
  | tiledFrame
  | tiledField
  | other
  deriving DecidableEq, Repr

/-- The fields of `struct cmd_line` that decide about buffers. -/
structure CmdLine where
  format : Format
  srcScheme : Scheme
  dstScheme : Scheme
  deblockEn : Int
  deringEn : Bool
  rotEn : Bool
  mapType : MapType
  mp4H264Class : Int
  deriving DecidableEq, Repr

def CmdLine.opened (cmdl : CmdLine) : CmdLine :=
  if cmdl.deblockEn = 1 then { cmdl with deblockEn := 0 } else cmdl

def CmdLine.shows (cmdl : CmdLine) : Bool := cmdl.dstScheme = .v4l2 || cmdl.dstScheme = .ipu

/-- The decoder decodes into frame buffers of its own. -/
def CmdLine.ownsFrames (cmdl : CmdLine) : Bool :=
  (cmdl.dstScheme ≠ .v4l2 && cmdl.dstScheme ≠ .ipu) ||
    ((cmdl.dstScheme = .v4l2 || cmdl.dstScheme = .ipu) && cmdl.deblockEn ≠ 0)

/-! ## Resources -/

inductive Side where
  | dec
  | enc
  deriving DecidableEq, Repr

inductive Mem where
  | bitstream (side : Side)
  | ps
  | slice
  | vp8Mbparam
  | scratch
  /-- `fbpool[i]`. -/
  | frame (side : Side) (i : Nat)
  /-- `mvcol_memdesc[i]`. -/
  | mvcol (i : Nat)
  deriving DecidableEq, Repr

inductive Resource where
  /-- Physical memory, from `IOGetPhyMem`. -/
  | phys (mem : Mem)
  /-- Its mapping, from `IOGetVirtMem`. -/
  | virt (mem : Mem)
  /-- `struct decode` and `struct encode`. -/
  | object (side : Side)
  /-- What `vpu_DecOpen` and `vpu_EncOpen` open. -/
  | handle (side : Side)
  | fb (side : Side)
  | pfbpool (side : Side)
  | mvcolMemdesc
  /-- The frame buffer device, while `v4l_display_open` sets its alpha value. -/
  | fdFb
  /-- `struct vpu_display`. -/
  | display
  | displayFd
  | v4lRsd
  | v4lBuf (i : Nat)
  | v4lMap (i : Nat)
  | ipuMem (i : Nat)
  | ipuMap (i : Nat)
  | qMatTable
  | huffTable
  /-- `cap_fd`. -/
  | capture
  deriving DecidableEq, Repr

/-- The counts of frame buffers in `struct decode`, `struct vpu_display` and `struct encode`. -/
structure Counts where
  regfbcount : Nat
  extrafb : Nat
  nframes : Nat
  encTotalfb : Nat
  deriving DecidableEq, Repr

/-- The labels of the clean-ups, the plain return, and the use of a null pointer or of memory
behind an array. -/
inductive Exit where
  | err
  | err1
  | err2
  | err3
  | err4
  | returned
  | segfault
  deriving DecidableEq, Repr

/-- Nothing is taken, and the objects count no buffers. -/
def initial : Store Resource Counts := ⟨nothing, ⟨0, 0, 0, 0⟩⟩

abbrev Routine : Type → Type := Allocator Resource Counts Exit

/-- The calls that take nothing and can fail. -/
inductive Step where
  /-- `MXCFB_SET_GBL_ALPHA`. -/
  | setAlpha
  /-- `FBIOGET_VSCREENINFO`. -/
  | screenInfo
  /-- The settings of the output device up to `VIDIOC_REQBUFS`. -/
  | configureOutput
  | queryBuf (i : Nat)
  /-- The second query, behind the mapping. -/
  | queryBufAgain (i : Nat)
  | decFillBsbuffer
  /-- `vpu_DecGetInitialInfo` with the command before it. -/
  | decInitialInfo
  /-- The stream has a picture size. -/
  | picSize
  | decRegisterFrameBuffer
  /-- `ENC_SET_SEARCHRAM_PARAM`. -/
  | searchRam
  | encInitialInfo
  | encRegisterFrameBuffer
  | chipIdent
  /-- The control that `v4l_capture_setup` sets. -/
  | captureControl
  /-- The camera has the size of the picture. -/
  | captureMode
  | captureParm
  | captureInput
  | captureCrop
  | captureFormat
  | captureRequest
  /-- The headers of the stream, in `encoder_start` with the checks of the picture size. -/
  | encoderHeaders
  | startCapturing
  /-- No frame hangs. -/
  | encodeFrames
  /-- `encode` for one of the first frames of `encdec_test`. -/
  | encode (i : Nat)
  /-- `decode` has a picture to show. -/
  | decode (i : Nat)
  deriving DecidableEq, Repr

structure System where
  gives : Resource → Bool
  does : Step → Bool
  mx6x : Bool
  mx27 : Bool

def bound (i : Nat) : Routine Unit := if i < maxBufNum then pure () else quit .segfault

section Functions
variable (sys : System)

def step (one : Step) (exit : Exit) : Routine Unit :=
  if sys.does one then pure () else quit exit

/-! ## Frame buffers -/

/-- `framebuf_alloc` and `tiled_framebuf_alloc`, which take the same for a frame buffer. -/
def framebufAlloc (mem : Mem) : Routine Bool := do
  match ← acquire (sys.gives (.phys mem)) (.phys mem) with
  | false => pure false
  | true =>
      match ← acquire (sys.gives (.virt mem)) (.virt mem) with
      | false => do
          release (.phys mem)
          pure false
      | true => pure true

/-- `framebuf_free`, which clears the descriptor. -/
def framebufFree (mem : Mem) : Routine Unit := do
  release (.virt mem)
  release (.phys mem)

def allocFrame (side : Side) (exit : Exit) (i : Nat) : Routine Unit := do
  bound i
  match ← framebufAlloc sys (.frame side i) with
  | true => pure ()
  | false => quit exit

/-! ## The V4L2 display -/

def v4lFreeBufs (n : Nat) : Routine Unit := do
  (List.range n).forM fun i => do
    deref .v4lRsd .segfault
    release (.v4lMap i)
    release (.v4lBuf i)
  release .v4lRsd

def v4lOpenBuf (i : Nat) : Routine Unit := do
  match ← acquire (sys.gives (.v4lBuf i)) (.v4lBuf i) with
  | false => do
      v4lFreeBufs i
      quit .err
  | true => do
      bound i
      deref .v4lRsd .segfault
      if sys.does (.queryBuf i) = false then do
        v4lFreeBufs i
        quit .err
      else do
        let start ← acquire (sys.gives (.v4lMap i)) (.v4lMap i)
        if sys.mx6x ∧ sys.does (.queryBufAgain i) = false then do
          v4lFreeBufs i
          quit .err
        else if start = false then do
          v4lFreeBufs i
          quit .err
        else pure ()

def v4lSetAlpha : Routine Unit :=
  if sys.mx27 then pure ()
  else do
    take (sys.gives .fdFb) .fdFb .returned
    step sys .setAlpha .returned
    release .fdFb

def v4lOpenBody (nframes : Nat) : Routine Unit := do
  v4lSetAlpha sys
  take (sys.gives .display) .display .returned
  take (sys.gives .displayFd) .displayFd .err
  step sys .configureOutput .err
  -- not looked at
  discard (acquire (sys.gives .v4lRsd) .v4lRsd)
  (List.range nframes).forM (v4lOpenBuf sys)
  assign fun counts => { counts with nframes := nframes }

def v4lDisplayOpen (nframes : Nat) : Routine Bool :=
  handle (v4lOpenBody sys nframes) fun
    | .ok _ => pure true
    | .error .segfault => quit .segfault
    | .error .returned => pure false
    | .error _ => do
        release .displayFd
        release .display
        pure false

/-- `v4l_display_close` for the display of the decoder, which may be null. -/
def v4lDisplayClose : Routine Unit := do
  match ← ask fun store => store.ptr .display with
  | false => pure ()
  | true => do
      let nframes ← ask fun store => store.vars.nframes
      v4lFreeBufs nframes
      release .displayFd
      release .display

/-! ## The display of the IPU library -/

def ipuMemoryAlloc (i : Nat) : Routine Bool := do
  bound i
  match ← acquire (sys.gives (.ipuMem i)) (.ipuMem i) with
  | false => do
      release .displayFd
      pure false
  | true => acquire (sys.gives (.ipuMap i)) (.ipuMap i)

def ipuMemoryFree (i : Nat) : Routine Unit := do
  release (.ipuMap i)
  release (.ipuMem i)

def ipuOpenBody (nframes : Nat) : Routine Unit := do
  take (sys.gives .display) .display .returned
  take (sys.gives .displayFd) .displayFd .err
  step sys .setAlpha .err
  step sys .screenInfo .err
  assign fun counts => { counts with nframes := nframes }
  (List.range nframes).forM fun i => do
    let allocated ← ipuMemoryAlloc sys i
    if allocated then pure () else quit .err1

def ipuDisplayOpen (nframes : Nat) : Routine Bool :=
  handle (ipuOpenBody sys nframes) fun
    | .ok _ => pure true
    | .error .segfault => quit .segfault
    | .error .returned => pure false
    | .error .err => do
        release .displayFd
        release .display
        pure false
    | .error _ => do
        -- the device stays open, and so do the buffers before this one
        release .display
        pure false

def ipuDisplayClose : Routine Unit := do
  deref .display .segfault
  let nframes ← ask fun store => store.vars.nframes
  (List.range nframes).forM ipuMemoryFree
  release .displayFd
  release .display

end Functions

/-! ## What they leave -/

def OfMem (mem : Mem) (r : Resource) : Prop := r = .phys mem ∨ r = .virt mem

def OfFrame (side : Side) (i : Nat) (r : Resource) : Prop := OfMem (.frame side i) r

def OfV4lBuf (i : Nat) (r : Resource) : Prop := r = .v4lBuf i ∨ r = .v4lMap i

def OfIpuBuf (i : Nat) (r : Resource) : Prop := r = .ipuMem i ∨ r = .ipuMap i

def OfDisplay : Resource → Prop
  | .fdFb => True
  | .display => True
  | .displayFd => True
  | .v4lRsd => True
  | .v4lBuf _ => True
  | .v4lMap _ => True
  | .ipuMem _ => True
  | .ipuMap _ => True
  | _ => False

def V4lOpen (n : Nat) (r : Resource) : Prop :=
  r = .display ∨ r = .displayFd ∨ r = .v4lRsd ∨ Entries OfV4lBuf 0 n r

def IpuOpen (n : Nat) (r : Resource) : Prop :=
  r = .display ∨ r = .displayFd ∨ Entries OfIpuBuf 0 n r

section Specs
variable {sys : System} {counts : Counts} {must may : Resource → Prop}
  {left : Exit → Assertion Resource Counts}

theorem step_spec {before : Assertion Resource Counts} {one : Step} {exit : Exit}
    (leaves : sys.does one = false → ∀ store held, before store held → left exit store held) :
    Spec before (step sys one exit) (fun _ => before) left := by
  unfold step
  cases does : sys.does one with
  | false => exact Spec.quit (leaves does)
  | true => exact Spec.pure fun _ _ start => start

theorem step_given {before : Assertion Resource Counts} {one : Step} {exit : Exit}
    (does : sys.does one = true) : Spec before (step sys one exit) (fun _ => before) left := by
  rw [step, if_pos does]
  exact Spec.pure fun _ _ start => start

theorem bound_spec {good : (Resource → Bool) → Prop} {i : Nat} (inside : i < maxBufNum) :
    Spec (Tidy counts good) (bound i) (fun _ => Tidy counts good) left := by
  rw [bound, if_pos inside]
  exact Spec.pure fun _ _ start => start

/-! ### Frame buffers -/

theorem framebufAlloc_spec {mem : Mem} (inside : ∀ r, must r → may r)
    (new : ∀ r, OfMem mem r → ¬ may r) :
    Spec (Tidy counts (Between must may)) (framebufAlloc sys mem)
      (fun allocated => Tidy counts
        (Between must fun r => may r ∨ (allocated = true ∧ OfMem mem r))) left := by
  unfold framebufAlloc
  refine Spec.acquire must (fun r => may r ∨ r = .phys mem) (new _ (.inl rfl))
    (fun _ => .inl) (fun _ set => set) (fun _ => ?_) fun _ => ?_
  · refine Spec.acquire must (fun r => may r ∨ OfMem mem r) (by grind [OfMem])
      (fun _ => .inl) (by grind [OfMem]) (fun _ => ?_) fun _ => ?_
    · exact Spec.pure fun _ _ start => start.widen (fun _ => id) (by grind)
    · refine Spec.bind (release_between must may (by grind [OfMem])
        (by grind [OfMem])) fun _ => ?_
      exact Spec.pure fun _ _ start => start.widen (fun _ => id) fun _ => .inl
  · exact Spec.pure fun _ _ start => start.widen (fun _ => id) fun _ => .inl

theorem framebufFree_spec {mem : Mem} (inside : ∀ r, must r → may r)
    (apart : ∀ r, OfMem mem r → ¬ may r) :
    Spec (Tidy counts (Between must fun r => may r ∨ OfMem mem r)) (framebufFree mem)
      (fun _ => Tidy counts (Between must may)) left := by
  unfold framebufFree
  refine Spec.bind (release_between must (fun r => may r ∨ r = .phys mem)
    (by grind [OfMem]) (by grind [OfMem])) fun _ => ?_
  exact release_between _ _ (by grind [OfMem]) (by grind [OfMem])

theorem allocFrame_spec {side : Side} {exit : Exit} {i n : Nat} (below : i < n)
    (room : n ≤ maxBufNum) (inside : ∀ r, must r → may r)
    (apart : ∀ i r, OfFrame side i r → ¬ may r)
    (leaves : ∀ store held,
      Tidy counts (Between must fun r => may r ∨ Entries (OfFrame side) 0 n r) store held →
        left exit store held) :
    Spec (Tidy counts (Between must fun r => may r ∨ Entries (OfFrame side) 0 i r))
      (allocFrame sys side exit i)
      (fun _ => Tidy counts (Between must fun r => may r ∨ Entries (OfFrame side) 0 (i + 1) r))
      left := by
  have more := @entries_last _ (OfFrame side) 0 i (Nat.zero_le i)
  unfold allocFrame
  refine Spec.bind (bound_spec (by omega)) fun _ => ?_
  refine Spec.bind (framebufAlloc_spec (by grind) ?_) fun allocated => ?_
  · intro r owned
    have := apart i r owned
    grind [Entries, OfFrame, OfMem]
  · cases allocated with
    | true => exact Spec.pure fun _ _ start => start.widen (fun _ => id) (by grind [OfFrame])
    | false =>
        exact Spec.quit fun _ _ start => leaves _ _ (start.widen (fun _ => id) (by grind [Entries]))

theorem freeFrames_spec {side : Side} {n : Nat} (inside : ∀ r, must r → may r)
    (apart : ∀ i r, OfFrame side i r → ¬ may r) :
    Spec (Tidy counts (Between must fun r => may r ∨ Entries (OfFrame side) 0 n r))
      ((List.range n).forM fun i => framebufFree (.frame side i))
      (fun _ => Tidy counts (Between must may)) left := by
  refine free_entries inside apart (by grind [OfFrame, OfMem]) ?_
  intro i _ rest inside _ apart
  exact framebufFree_spec inside apart

/-! ### The V4L2 display -/

theorem v4lFreeBufs_spec {n : Nat} (inside : ∀ r, must r → may r)
    (apart : ∀ i r, OfV4lBuf i r → ¬ may r) (rsd : must .v4lRsd) :
    Spec (Tidy counts (Between must fun r => may r ∨ Entries OfV4lBuf 0 n r)) (v4lFreeBufs n)
      (fun _ => Tidy counts
        (Between (fun r => must r ∧ r ≠ .v4lRsd) fun r => may r ∧ r ≠ .v4lRsd)) left := by
  unfold v4lFreeBufs
  refine Spec.bind (free_entries inside apart (by grind [OfV4lBuf]) ?_) fun _ => ?_
  · intro i _ rest inside _ apart
    refine Spec.bind (deref_between rsd) fun _ => ?_
    refine Spec.bind (release_between must (fun r => rest r ∨ r = .v4lBuf i)
      (by grind [OfV4lBuf]) (by grind [OfV4lBuf])) fun _ => ?_
    exact release_between _ _ (by grind [OfV4lBuf]) (by grind)
  · exact release_between _ _ (by grind) (by grind)

theorem v4lDisplayClose_spec {n : Nat} (nframes : counts.nframes = n)
    (inside : ∀ r, must r → may r) (apart : ∀ r, OfDisplay r → ¬ may r) :
    Spec (Tidy counts (Between (fun r => must r ∨ r = .display ∨ r = .v4lRsd)
        fun r => may r ∨ V4lOpen n r)) v4lDisplayClose
      (fun _ => Tidy counts (Between must may)) left := by
  unfold v4lDisplayClose
  refine Spec.askSet (by grind) ?_
  refine Spec.askVars Counts.nframes ?_
  rw [nframes]
  have freed := @v4lFreeBufs_spec counts (fun r => must r ∨ r = .display ∨ r = .v4lRsd)
    (fun r => may r ∨ r = .display ∨ r = .displayFd ∨ r = .v4lRsd) left n (by grind)
    (by grind [OfV4lBuf, OfDisplay]) (by grind)
  refine Spec.bind (freed.strengthen fun _ _ start => start.widen (by grind)
    (by grind [V4lOpen])) fun _ => ?_
  refine Spec.bind (release_between (fun r => must r ∨ r = .display)
    (fun r => may r ∨ r = .display) (by grind [OfDisplay]) (by grind)) fun _ => ?_
  exact release_between _ _ (by grind [OfDisplay]) (by grind)

theorem v4lDisplayClose_null (outside : ¬ may .display) :
    Spec (Tidy counts (Between must may)) v4lDisplayClose
      (fun _ => Tidy counts (Between must may)) left := by
  unfold v4lDisplayClose
  exact Spec.askUnset outside (Spec.pure fun _ _ start => start)

/-- The calls of `v4l_display_open` whose failure it does not clean up. -/
structure V4lSpared (sys : System) (n : Nat) : Prop where
  alpha : sys.mx27 = false → sys.does .setAlpha = true
  rsd : sys.gives .v4lRsd = true
  query : ∀ i < n, sys.does (.queryBuf i) = true
  again : sys.mx6x = true → ∀ i < n, sys.does (.queryBufAgain i) = true
  map : ∀ i < n, sys.gives (.v4lMap i) = true
  room : n ≤ maxBufNum

def openJumps (counts : Counts) (must may : Resource → Prop) : Exit → Assertion Resource Counts
  | .returned => Tidy counts (Between must may)
  | .err => Tidy counts (Between must fun r => may r ∨ r = .display ∨ r = .displayFd)
  | _ => fun _ _ => False

theorem v4lOpenBuf_spec {n : Nat} (spared : V4lSpared sys n) (inside : ∀ r, must r → may r)
    (apart : ∀ r, OfDisplay r → ¬ may r) {i : Nat} (below : i < n) :
    Spec (Tidy counts (Between (fun r => must r ∨ r = .display ∨ r = .v4lRsd)
        fun r => may r ∨ V4lOpen i r)) (v4lOpenBuf sys i)
      (fun _ => Tidy counts (Between (fun r => must r ∨ r = .display ∨ r = .v4lRsd)
        fun r => may r ∨ V4lOpen (i + 1) r)) (openJumps counts must may) := by
  unfold v4lOpenBuf
  have room := spared.room
  refine Spec.acquire (fun r => must r ∨ r = .display ∨ r = .v4lRsd)
    (fun r => may r ∨ V4lOpen i r ∨ r = .v4lBuf i) ?_ (fun _ => .inl) (by grind) (fun _ => ?_)
    fun _ => ?_
  · rintro (other | owned)
    · exact apart (.v4lBuf i) trivial other
    · grind [V4lOpen, Entries, OfV4lBuf]
  · refine Spec.bind (bound_spec (by omega)) fun _ => ?_
    refine Spec.bind (deref_between (by grind)) fun _ => ?_
    rw [if_neg (by simp [spared.query i below])]
    refine Spec.acquire (fun r => must r ∨ r = .display ∨ r = .v4lRsd)
      (fun r => may r ∨ V4lOpen (i + 1) r) ?_ (fun _ => .inl) ?_ (fun _ => ?_) fun refused => ?_
    · rintro (other | owned | owned)
      · exact apart (.v4lMap i) trivial other
      · grind [V4lOpen, Entries, OfV4lBuf]
      · cases owned
    · intro r
      have more := @entries_last _ OfV4lBuf 0 i (Nat.zero_le i) r
      grind [V4lOpen, OfV4lBuf]
    · rw [if_neg, if_neg Bool.noConfusion]
      · exact Spec.pure fun _ _ start => start
      · rintro ⟨mx6x, fails⟩
        rw [spared.again mx6x i below] at fails
        cases fails
    · rw [spared.map i below] at refused
      cases refused
  · have freed := @v4lFreeBufs_spec counts (fun r => must r ∨ r = .display ∨ r = .v4lRsd)
      (fun r => may r ∨ r = .display ∨ r = .displayFd ∨ r = .v4lRsd) (openJumps counts must may) i
      (by grind) (by grind [OfV4lBuf, OfDisplay]) (by grind)
    refine Spec.bind (freed.strengthen fun _ _ start => start.widen (fun _ => id)
      (by grind [V4lOpen])) fun _ => ?_
    exact Spec.quit fun _ _ start => start.widen (by grind [OfDisplay]) (by grind)

theorem v4lSetAlpha_spec {n : Nat} (spared : V4lSpared sys n) (inside : ∀ r, must r → may r)
    (apart : ∀ r, OfDisplay r → ¬ may r) :
    Spec (Tidy counts (Between must may)) (v4lSetAlpha sys)
      (fun _ => Tidy counts (Between must may)) (openJumps counts must may) := by
  unfold v4lSetAlpha
  refine Spec.ite (fun _ => Spec.pure fun _ _ start => start) fun other => ?_
  refine Spec.bind (take_between must (fun r => may r ∨ r = .fdFb) (apart .fdFb trivial)
    (fun _ => .inl) (by grind) fun _ _ start => start) fun _ => ?_
  refine Spec.bind (step_given (spared.alpha (by simpa using other))) fun _ => ?_
  exact release_between _ _ (by grind [OfDisplay]) (by grind)

theorem v4lOpenBody_spec {n : Nat} (spared : V4lSpared sys n) (inside : ∀ r, must r → may r)
    (apart : ∀ r, OfDisplay r → ¬ may r) :
    Spec (Tidy counts (Between must may)) (v4lOpenBody sys n)
      (fun _ => Tidy { counts with nframes := n }
        (Between (fun r => must r ∨ r = .display ∨ r = .v4lRsd) fun r => may r ∨ V4lOpen n r))
      (openJumps counts must may) := by
  unfold v4lOpenBody
  refine Spec.bind (v4lSetAlpha_spec spared inside apart) fun _ => ?_
  refine Spec.bind (take_between (fun r => must r ∨ r = .display) (fun r => may r ∨ r = .display)
    (apart .display trivial) (by grind) (by grind) fun _ _ start => start) fun _ => ?_
  refine Spec.bind (take_between (fun r => must r ∨ r = .display)
    (fun r => may r ∨ r = .display ∨ r = .displayFd) (by grind [OfDisplay]) (fun _ => .inl)
    (by grind) fun _ _ start => start.widen (fun _ => .inl) (by grind)) fun _ => ?_
  refine Spec.bind (step_spec fun _ _ _ start => start.widen (fun _ => .inl) (by grind)) fun _ => ?_
  have rsd : Spec (Tidy counts (Between (fun r => must r ∨ r = .display)
        fun r => may r ∨ r = .display ∨ r = .displayFd))
      (discard (acquire (sys.gives .v4lRsd) .v4lRsd))
      (fun _ => Tidy counts (Between (fun r => must r ∨ r = .display ∨ r = .v4lRsd)
        fun r => may r ∨ V4lOpen 0 r)) (openJumps counts must may) := by
    refine Spec.acquire (fun r => must r ∨ r = .display ∨ r = .v4lRsd)
      (fun r => may r ∨ V4lOpen 0 r) (by grind [OfDisplay]) (by grind) (by grind [V4lOpen])
      (fun _ => Spec.pure fun _ _ start => start) fun refused => ?_
    rw [spared.rsd] at refused
    cases refused
  refine Spec.bind rsd fun _ => ?_
  have loop := @Spec.forM Resource Counts Exit _ (openJumps counts must may) (v4lOpenBuf sys)
    (fun i => Tidy counts (Between (fun r => must r ∨ r = .display ∨ r = .v4lRsd)
      fun r => may r ∨ V4lOpen i r)) n
  exact (loop fun i below => v4lOpenBuf_spec spared inside apart below).bind fun _ => assign_tidy

theorem v4lDisplayOpen_spec {n : Nat} (spared : V4lSpared sys n) (inside : ∀ r, must r → may r)
    (apart : ∀ r, OfDisplay r → ¬ may r) :
    Spec (Tidy counts (Between must may)) (v4lDisplayOpen sys n)
      (fun opened => if opened then Tidy { counts with nframes := n }
          (Between (fun r => must r ∨ r = .display ∨ r = .v4lRsd) fun r => may r ∨ V4lOpen n r)
        else Tidy counts (Between must may)) left := by
  refine Spec.handle (v4lOpenBody_spec spared inside apart) (fun _ => ?_) fun label => ?_
  · exact Spec.pure fun _ _ start => start
  · cases label with
    | returned => exact Spec.pure fun _ _ start => start
    | err =>
        refine Spec.bind (release_between must (fun r => may r ∨ r = .display)
          (by grind [OfDisplay]) (by grind)) fun _ => ?_
        refine Spec.bind (release_between must may (by grind [OfDisplay]) (by grind)) fun _ => ?_
        exact Spec.pure fun _ _ start => start
    | segfault => exact fun _ _ start => start.elim
    | _ => exact fun _ _ start => start.elim

/-! ### The display of the IPU library -/

/-- The calls of `ipu_display_open` whose failure it does not clean up. -/
structure IpuSpared (sys : System) (n : Nat) : Prop where
  mem : ∀ i < n, sys.gives (.ipuMem i) = true
  map : ∀ i < n, sys.gives (.ipuMap i) = true
  room : n ≤ maxBufNum

theorem ipuMemoryAlloc_spec {n : Nat} (spared : IpuSpared sys n)
    (apart : ∀ r, OfDisplay r → ¬ may r) {i : Nat} (below : i < n) :
    Spec (Tidy counts (Between must fun r => may r ∨ IpuOpen i r)) (ipuMemoryAlloc sys i)
      (fun allocated store held => allocated = true ∧
        Tidy counts (Between must fun r => may r ∨ IpuOpen (i + 1) r) store held) left := by
  unfold ipuMemoryAlloc
  have room := spared.room
  refine Spec.bind (bound_spec (by omega)) fun _ => ?_
  refine Spec.acquire must (fun r => may r ∨ IpuOpen i r ∨ r = .ipuMem i) ?_ (fun _ => .inl)
    (by grind) (fun _ => ?_) fun refused => ?_
  · rintro (other | owned)
    · exact apart (.ipuMem i) trivial other
    · grind [IpuOpen, Entries, OfIpuBuf]
  · have mapped := @acquire_tidy _ _ _ _ counts
      (Between must fun r => may r ∨ IpuOpen i r ∨ r = .ipuMem i)
      (Between must fun r => may r ∨ IpuOpen (i + 1) r) (.ipuMap i) left (sys.gives (.ipuMap i))
      (fun _ between => between.upper.unset ?_)
      fun _ between => between.acquired (fun _ => .inl) ?_
    · refine mapped.relax fun taken _ _ reached => ?_
      obtain ⟨given, reached⟩ := reached
      rw [given, spared.map i below] at reached
      exact ⟨by rw [given, spared.map i below], reached⟩
    · rintro (other | owned | owned)
      · exact apart (.ipuMap i) trivial other
      · grind [IpuOpen, Entries, OfIpuBuf]
      · cases owned
    · intro r
      have more := @entries_last _ OfIpuBuf 0 i (Nat.zero_le i) r
      grind [IpuOpen, OfIpuBuf]
  · rw [spared.mem i below] at refused
    cases refused

theorem ipuOpenBody_spec {n : Nat} (spared : IpuSpared sys n)
    (apart : ∀ r, OfDisplay r → ¬ may r) :
    Spec (Tidy counts (Between must may)) (ipuOpenBody sys n)
      (fun _ => Tidy { counts with nframes := n }
        (Between (fun r => must r ∨ r = .display) fun r => may r ∨ IpuOpen n r))
      (openJumps counts must may) := by
  unfold ipuOpenBody
  refine Spec.bind (take_between (fun r => must r ∨ r = .display) (fun r => may r ∨ r = .display)
    (apart .display trivial) (by grind) (by grind) fun _ _ start => start) fun _ => ?_
  refine Spec.bind (take_between (fun r => must r ∨ r = .display)
    (fun r => may r ∨ r = .display ∨ r = .displayFd) (by grind [OfDisplay]) (fun _ => .inl)
    (by grind) fun _ _ start => start.widen (fun _ => .inl) (by grind)) fun _ => ?_
  refine Spec.bind (step_spec fun _ _ _ start => start.widen (fun _ => .inl) (by grind)) fun _ => ?_
  refine Spec.bind (step_spec fun _ _ _ start => start.widen (fun _ => .inl) (by grind)) fun _ => ?_
  refine Spec.bind assign_tidy fun _ => ?_
  have loop := @Spec.forM Resource Counts Exit _ (openJumps counts must may)
    (fun i => do
      let allocated ← ipuMemoryAlloc sys i
      if allocated then pure () else quit .err1)
    (fun i => Tidy { counts with nframes := n }
      (Between (fun r => must r ∨ r = .display) fun r => may r ∨ IpuOpen i r)) n
  refine (loop fun i below => ?_).strengthen fun _ _ start => start.widen (fun _ => id)
    (by grind [IpuOpen])
  refine Spec.bind (ipuMemoryAlloc_spec spared apart below) fun allocated => ?_
  cases allocated with
  | false => exact fun _ _ start => absurd start.1 Bool.false_ne_true
  | true => exact Spec.pure fun _ _ start => start.2

theorem ipuDisplayOpen_spec {n : Nat} (spared : IpuSpared sys n) (inside : ∀ r, must r → may r)
    (apart : ∀ r, OfDisplay r → ¬ may r) :
    Spec (Tidy counts (Between must may)) (ipuDisplayOpen sys n)
      (fun opened => if opened then Tidy { counts with nframes := n }
          (Between (fun r => must r ∨ r = .display) fun r => may r ∨ IpuOpen n r)
        else Tidy counts (Between must may)) left := by
  refine Spec.handle (ipuOpenBody_spec spared apart) (fun _ => ?_) fun label => ?_
  · exact Spec.pure fun _ _ start => start
  · cases label with
    | returned => exact Spec.pure fun _ _ start => start
    | err =>
        refine Spec.bind (release_between must (fun r => may r ∨ r = .display)
          (by grind [OfDisplay]) (by grind)) fun _ => ?_
        refine Spec.bind (release_between must may (by grind [OfDisplay]) (by grind)) fun _ => ?_
        exact Spec.pure fun _ _ start => start
    | segfault => exact fun _ _ start => start.elim
    | _ => exact fun _ _ start => start.elim

theorem ipuDisplayClose_spec {n : Nat} (nframes : counts.nframes = n)
    (inside : ∀ r, must r → may r) (apart : ∀ r, OfDisplay r → ¬ may r) :
    Spec (Tidy counts (Between (fun r => must r ∨ r = .display) fun r => may r ∨ IpuOpen n r))
      ipuDisplayClose (fun _ => Tidy counts (Between must may)) left := by
  unfold ipuDisplayClose
  refine Spec.bind (deref_between (by grind)) fun _ => ?_
  refine Spec.askVars Counts.nframes ?_
  rw [nframes]
  have freed := @free_entries Resource Counts Exit _ OfIpuBuf (fun r => must r ∨ r = .display)
    (fun r => may r ∨ r = .display ∨ r = .displayFd) counts left ipuMemoryFree n (by grind)
    (by grind [OfIpuBuf, OfDisplay]) (by grind [OfIpuBuf]) ?_
  · refine Spec.bind (freed.strengthen fun _ _ start => start.widen (fun _ => id)
      (by grind [IpuOpen])) fun _ => ?_
    refine Spec.bind (release_between (fun r => must r ∨ r = .display)
      (fun r => may r ∨ r = .display) (by grind [OfDisplay]) (by grind)) fun _ => ?_
    exact release_between _ _ (by grind [OfDisplay]) (by grind)
  · intro i _ rest inside _ apart
    unfold ipuMemoryFree
    refine Spec.bind (release_between (fun r => must r ∨ r = .display)
      (fun r => rest r ∨ r = .ipuMem i) (by grind [OfIpuBuf]) (by grind [OfIpuBuf])) fun _ => ?_
    exact release_between _ _ (by grind [OfIpuBuf]) (by grind)

end Specs

end ImxTest.Vpu.Buffers
