import ImxTest.Vpu.Buffers

/-!
# What `decode_test` leaves behind

`decode_test` takes its buffers step by step and leaves through two labels, and
`decoder_allocate_framebuffer` has clean-ups of its own, after which the caller's runs too.
The model goes through all of them with every call free to fail.
-/

set_option autoImplicit false

namespace ImxTest.Vpu.DecodeTest

open ImxTest.Lib.Traced
open ImxTest.Lib.Ledger
open ImxTest.Vpu.Buffers

/-- What the system answers, and what the stream asks for. -/
structure Run extends System where
  minfbcount : Nat
  /-- `VPU_EXTENDED_BUFFER_COUNT`, or 2. -/
  extendedFbcount : Nat
  interlace : Bool

def Run.regfbcount (run : Run) : Nat :=
  run.minfbcount + run.extendedFbcount + if run.interlace then 2 else 0

def total (counts : Counts) : Nat := counts.regfbcount + counts.extrafb

section Functions
variable (run : Run) (cmdl : CmdLine)

/-! ## `decoder_allocate_framebuffer` and `decoder_free_framebuffer` -/

/-- A frame buffer for rotation and deringing, with those that are queued, and one for
deblocking.  `tiled2LinearEnable` is never set. -/
def countFramebuffers (counts : Counts) : Counts :=
  { counts with
    extrafb := counts.extrafb +
      (if cmdl.rotEn || cmdl.deringEn then counts.regfbcount - run.minfbcount + 1 else 0) +
      if cmdl.deblockEn ≠ 0 then 1 else 0 }

def allocFrames : Routine Unit :=
  if cmdl.ownsFrames then do
    let counts ← ask fun store => store.vars
    if cmdl.mapType = .linear then
      (List.range (total counts)).forM (allocFrame run.toSystem .dec .err)
    else do
      (List.range counts.regfbcount).forM (allocFrame run.toSystem .dec .err)
      (List.range counts.extrafb).forM fun i =>
        allocFrame run.toSystem .dec .err1 (counts.regfbcount + i)
  else pure ()

def displayOpen (nframes : Nat) : Routine Bool :=
  match cmdl.dstScheme with
  | .v4l2 => v4lDisplayOpen run.toSystem nframes
  | .ipu => ipuDisplayOpen run.toSystem nframes
  | _ => pure false

def allocMvcol (i : Nat) : Routine Unit :=
  if cmdl.mapType = .other then quit .err1
  else if run.mx27 then pure ()
  else do
    deref .mvcolMemdesc .segfault
    take (run.gives (.phys (.mvcol i))) (.phys (.mvcol i)) .err1

def allocMvcols (totalfb : Nat) : Routine Unit := do
  -- not looked at
  discard (acquire (!run.mx27 && run.gives .mvcolMemdesc) .mvcolMemdesc)
  (List.range totalfb).forM (allocMvcol run cmdl)

def allocDisplay (totalfb : Nat) : Routine Unit :=
  if cmdl.shows then do
    match ← displayOpen run cmdl totalfb with
    | false => quit .err
    | true => if cmdl.deblockEn = 0 then allocMvcols run cmdl totalfb else pure ()
  else pure ()

def allocateBody : Routine Unit := do
  assign (countFramebuffers run cmdl)
  let totalfb ← ask fun store => total store.vars
  take (run.gives (.fb .dec)) (.fb .dec) .returned
  match ← acquire (run.gives (.pfbpool .dec)) (.pfbpool .dec) with
  | false => do
      release (.fb .dec)
      quit .returned
  | true => do
      allocFrames run cmdl
      allocDisplay run cmdl totalfb
      step run.toSystem .decRegisterFrameBuffer .err1

/-- What closes the display, also behind the label `err1`. -/
def displayClose : Routine Unit :=
  match cmdl.dstScheme with
  | .v4l2 => v4lDisplayClose
  | .ipu => ipuDisplayClose
  | _ => pure ()

def freeFramesAfterFailure (totalfb : Nat) : Routine Unit :=
  if (cmdl.dstScheme ≠ .v4l2 ∧ cmdl.dstScheme ≠ .ipu) ∨
      (cmdl.dstScheme = .v4l2 ∧ cmdl.deblockEn ≠ 0) then
    (List.range totalfb).forM fun i => framebufFree (.frame .dec i)
  else pure ()

def freeAfterFailure : Routine Unit := do
  let totalfb ← ask fun store => total store.vars
  freeFramesAfterFailure cmdl totalfb
  release (.fb .dec)
  release (.pfbpool .dec)

def decoderAllocateFramebuffer : Routine Bool :=
  handle (allocateBody run cmdl) fun
    | .ok _ => pure true
    | .error .segfault => quit .segfault
    | .error .returned => pure false
    | .error .err1 => do
        displayClose cmdl
        freeAfterFailure cmdl
        pure false
    | .error _ => do
        freeAfterFailure cmdl
        pure false

def freeDisplay : Routine Unit := do
  match ← ask fun store => store.ptr .display with
  | true => displayClose cmdl
  | false => pure ()

def freeMvcols (totalfb : Nat) : Routine Unit := do
  match ← ask fun store => store.ptr .mvcolMemdesc with
  | true => do
      (List.range totalfb).forM fun i => release (.phys (.mvcol i))
      release .mvcolMemdesc
  | false => pure ()

def freeShown (totalfb : Nat) : Routine Unit :=
  if cmdl.shows then do
    freeDisplay cmdl
    freeMvcols totalfb
  else pure ()

def freeFrame (i : Nat) : Routine Unit := do
  match ← ask fun store => store.ptr (.pfbpool .dec) with
  | true => framebufFree (.frame .dec i)
  | false => pure ()

def freeFrames (totalfb : Nat) : Routine Unit :=
  if cmdl.ownsFrames then (List.range totalfb).forM freeFrame else pure ()

def decoderFreeFramebuffer : Routine Unit := do
  let totalfb ← ask fun store => total store.vars
  freeShown cmdl totalfb
  freeFrames cmdl totalfb
  release (.fb .dec)
  release (.pfbpool .dec)

/-! ## `decode_test` -/

/-- `decoder_parse`, as far as it counts buffers. -/
def decoderParse (exit : Exit) : Routine Unit := do
  step run.toSystem .decInitialInfo exit
  assign fun counts => { counts with regfbcount := run.regfbcount }
  step run.toSystem .picSize exit

def takeIf (condition : Bool) (mem : Mem) (exit : Exit) : Routine Unit :=
  if condition then take (run.gives (.phys mem)) (.phys mem) exit else pure ()

/-- `decode_test` up to its labels.  What `decoder_start` returns makes no difference. -/
def decodeBody : Routine Unit := do
  take (run.gives (.object .dec)) (.object .dec) .err
  take (run.gives (.phys (.bitstream .dec))) (.phys (.bitstream .dec)) .err
  take (run.gives (.virt (.bitstream .dec))) (.virt (.bitstream .dec)) .err
  takeIf run (cmdl.format = .avc) .ps .err
  take (run.gives (.handle .dec)) (.handle .dec) .err
  step run.toSystem .decFillBsbuffer .err1
  decoderParse run .err1
  takeIf run (cmdl.format = .avc) .slice .err1
  takeIf run (cmdl.format = .vp8) .vp8Mbparam .err1
  match ← decoderAllocateFramebuffer run cmdl.opened with
  | true => pure ()
  | false => quit .err1

def giveBackIf (condition : Bool) (mem : Mem) : Routine Unit :=
  if condition then giveBack (.phys mem) else pure ()

def cleanUpErr : Routine Unit := do
  giveBackIf (cmdl.format = .avc) .slice
  giveBackIf (cmdl.format = .avc) .ps
  giveBackIf (cmdl.format = .vp8) .vp8Mbparam
  -- mjpg_cached_bsbuf, which is never allocated
  deref (.object .dec) .segfault
  giveBack (.virt (.bitstream .dec))
  giveBack (.phys (.bitstream .dec))
  giveBack (.object .dec)

def cleanUpErr1 : Routine Unit := do
  release (.handle .dec)
  decoderFreeFramebuffer cmdl.opened
  cleanUpErr cmdl

def decodeTest : Routine Unit :=
  handle (decodeBody run cmdl) fun
    | .ok _ => cleanUpErr1 cmdl
    | .error .segfault => quit .segfault
    | .error .err1 => cleanUpErr1 cmdl
    | .error _ => cleanUpErr cmdl

end Functions

/-! ## What can be left at the labels -/

def OfMvcol (i : Nat) (r : Resource) : Prop := r = .phys (.mvcol i)

def OfFramebuffers (r : Resource) : Prop :=
  OfDisplay r ∨ r = .fb .dec ∨ r = .pfbpool .dec ∨ r = .mvcolMemdesc ∨ (∃ i, OfFrame .dec i r) ∨
    ∃ i, OfMvcol i r

theorem OfFramebuffers.fb : OfFramebuffers (.fb .dec) := .inr (.inl rfl)

theorem OfFramebuffers.pool : OfFramebuffers (.pfbpool .dec) := .inr (.inr (.inl rfl))

theorem OfFramebuffers.memdesc : OfFramebuffers .mvcolMemdesc := .inr (.inr (.inr (.inl rfl)))

theorem OfFramebuffers.frame {i : Nat} {r : Resource} (owned : OfFrame .dec i r) :
    OfFramebuffers r :=
  .inr (.inr (.inr (.inr (.inl ⟨i, owned⟩))))

theorem OfFramebuffers.mvcol {i : Nat} {r : Resource} (owned : OfMvcol i r) : OfFramebuffers r :=
  .inr (.inr (.inr (.inr (.inr ⟨i, owned⟩))))

def Shown (cmdl : CmdLine) (n : Nat) (r : Resource) : Prop :=
  match cmdl.dstScheme with
  | .v4l2 => V4lOpen n r
  | .ipu => IpuOpen n r
  | _ => False

def ShownSet (cmdl : CmdLine) (r : Resource) : Prop :=
  match cmdl.dstScheme with
  | .v4l2 => r = .display ∨ r = .v4lRsd
  | .ipu => r = .display
  | _ => False

/-- The three parts that are there or not: the frame buffers, the buffers of motion vectors
and the display. -/
structure Parts where
  pool : Bool
  mvcol : Bool
  shown : Bool

def Kept (cmdl : CmdLine) (parts : Parts) (n : Nat) (r : Resource) : Prop :=
  (parts.pool = true ∧ (r = .fb .dec ∨ r = .pfbpool .dec ∨
    (cmdl.ownsFrames = true ∧ Entries (OfFrame .dec) 0 n r))) ∨
  (parts.mvcol = true ∧ (r = .mvcolMemdesc ∨ Entries OfMvcol 0 n r)) ∨
  (parts.shown = true ∧ Shown cmdl n r)

/-- The pointers by which the clean-ups find them. -/
def KeptSet (cmdl : CmdLine) (parts : Parts) (r : Resource) : Prop :=
  (parts.pool = true ∧ r = .pfbpool .dec) ∨ (parts.mvcol = true ∧ r = .mvcolMemdesc) ∨
    (parts.shown = true ∧ ShownSet cmdl r)

/-- The parts fit the command line, the display knows how many buffers it has, and the count of
the encoder is as it was. -/
structure Fits (cmdl : CmdLine) (enc : Nat) (counts : Counts) (parts : Parts) : Prop where
  shown : parts.shown = true → cmdl.shows = true ∧ counts.nframes = total counts
  mvcol : parts.mvcol = true → cmdl.shows = true
  encoder : counts.encTotalfb = enc

/-- Beside what was there before, these parts are there. -/
def Has (cmdl : CmdLine) (must may : Resource → Prop) (counts : Counts) (parts : Parts) :
    Assertion Resource Counts :=
  Tidy counts (Between (fun r => must r ∨ KeptSet cmdl parts r)
    fun r => may r ∨ Kept cmdl parts (total counts) r)

/-- Beside what was there before, at most these parts are left. -/
def Leftovers (cmdl : CmdLine) (enc : Nat) (must may : Resource → Prop) :
    Assertion Resource Counts :=
  fun store held => ∃ counts parts, Fits cmdl enc counts parts ∧
    Has cmdl must may counts parts store held

/-- The calls whose failure is not cleaned up, and what the clean-ups assume. -/
structure Spared (run : Run) (cmdl : CmdLine) (n : Nat) : Prop where
  /-- Deblocking is on behind `decoder_open` where `-d` is neither 0 nor 1. -/
  deblock : cmdl.dstScheme = .ipu → cmdl.deblockEn = 0
  mvcol : cmdl.shows = true → run.mx27 = false → run.gives .mvcolMemdesc = true
  v4l : cmdl.dstScheme = .v4l2 → V4lSpared run.toSystem n
  ipu : cmdl.dstScheme = .ipu → IpuSpared run.toSystem n
  room : n ≤ maxBufNum

def Allocated (cmdl : CmdLine) (enc : Nat) (must may : Resource → Prop) :
    Assertion Resource Counts :=
  fun store held => ∃ counts parts, Fits cmdl enc counts parts ∧ parts.pool = true ∧
    (cmdl.dstScheme = .ipu → parts.shown = true) ∧ Has cmdl must may counts parts store held

def Ready (cmdl : CmdLine) (enc : Nat) (must may : Resource → Prop) : Assertion Resource Counts :=
  fun store held => ∃ counts parts, Fits cmdl enc counts parts ∧ parts.pool = true ∧
    (cmdl.shows = true → parts.shown = true) ∧ Has cmdl must may counts parts store held

def allocateJumps (cmdl : CmdLine) (enc : Nat) (must may : Resource → Prop) :
    Exit → Assertion Resource Counts
  | .returned => Leftovers cmdl enc must may
  | .err => fun store held => ∃ counts, counts.encTotalfb = enc ∧
      Has cmdl must may counts ⟨true, false, false⟩ store held
  | .err1 => Allocated cmdl enc must may
  | _ => fun _ _ => False

section Specs
variable {run : Run} {cmdl : CmdLine} {enc : Nat} {counts : Counts} {parts : Parts}
  {must may : Resource → Prop} {left : Exit → Assertion Resource Counts}

/-- There is no display, and the frame buffers may be there. -/
theorem Fits.onlyFrames {pool : Bool} (encoder : counts.encTotalfb = enc) :
    Fits cmdl enc counts ⟨pool, false, false⟩ :=
  ⟨nofun, nofun, encoder⟩

theorem shows_of_shown (fits : Fits cmdl enc counts parts) (other : cmdl.dstScheme ≠ .v4l2)
    (another : cmdl.dstScheme ≠ .ipu) : parts.shown = false := by
  cases shown : parts.shown with
  | false => rfl
  | true =>
      have shows := (fits.shown shown).1
      simp [CmdLine.shows, other, another] at shows

theorem Ready.allocated {store : Store Resource Counts} {held : Resource → Bool}
    (ready : Ready cmdl enc must may store held) : Allocated cmdl enc must may store held := by
  obtain ⟨counts, parts, fits, pool, opened, has⟩ := ready
  exact ⟨counts, parts, fits, pool, fun ipu => opened (by simp [CmdLine.shows, ipu]), has⟩

theorem Ready.leftovers {store : Store Resource Counts} {held : Resource → Bool}
    (ready : Ready cmdl enc must may store held) : Leftovers cmdl enc must may store held := by
  obtain ⟨counts, parts, fits, _, _, has⟩ := ready
  exact ⟨counts, parts, fits, has⟩

def Parts.closed (parts : Parts) : Parts := { parts with shown := false }

theorem apart_kept (apart : ∀ r, OfFramebuffers r → ¬ may r) (n : Nat) (r : Resource)
    (display : OfDisplay r) : ¬ (may r ∨ Kept cmdl parts.closed n r) := by
  cases r <;>
    grind [OfDisplay, OfFramebuffers, Kept, Parts.closed, Entries, OfFrame, OfMem, OfMvcol]

theorem displayClose_spec (fits : Fits cmdl enc counts parts)
    (inside : ∀ r, must r → may r) (apart : ∀ r, OfFramebuffers r → ¬ may r)
    (opened : cmdl.dstScheme = .ipu → parts.shown = true) :
    Spec (Has cmdl must may counts parts) (displayClose cmdl)
      (fun _ => Has cmdl must may counts parts.closed) left := by
  have within : ∀ r, must r ∨ KeptSet cmdl parts.closed r →
      may r ∨ Kept cmdl parts.closed (total counts) r := by
    grind [KeptSet, Kept, Parts.closed]
  have same : parts.shown = false → parts.closed = parts := by
    intro shown
    rw [Parts.closed, ← shown]
  have apart_closed := @apart_kept cmdl parts may apart (total counts)
  unfold displayClose
  split
  · rename_i scheme
    cases shown : parts.shown with
    | true =>
        refine (v4lDisplayClose_spec (fits.shown shown).2 within apart_closed).strengthen ?_
        exact fun _ _ start => start.widen (by grind [KeptSet, ShownSet, Parts.closed])
          (by grind [Kept, Shown, Parts.closed])
    | false =>
        rw [same shown] at apart_closed ⊢
        exact v4lDisplayClose_null (apart_closed .display trivial)
  · rename_i scheme
    refine (ipuDisplayClose_spec (fits.shown (opened scheme)).2 within
      apart_closed).strengthen ?_
    exact fun _ _ start => start.widen (by grind [KeptSet, ShownSet, Parts.closed])
      (by grind [Kept, Shown, Parts.closed])
  · rename_i other another
    rw [same (shows_of_shown fits other another)]
    exact Spec.pure fun _ _ start => start

theorem freeAfterFailure_spec {mvcol : Bool} (deblock : cmdl.dstScheme = .ipu → cmdl.deblockEn = 0)
    (inside : ∀ r, must r → may r) (apart : ∀ r, OfFramebuffers r → ¬ may r) :
    Spec (Has cmdl must may counts ⟨true, mvcol, false⟩) (freeAfterFailure cmdl)
      (fun _ => Has cmdl must may counts ⟨false, mvcol, false⟩) left := by
  unfold freeAfterFailure
  refine Spec.askVars total ?_
  have freed : Spec (Has cmdl must may counts ⟨true, mvcol, false⟩)
      (freeFramesAfterFailure cmdl (total counts))
      (fun _ => Tidy counts (Between (fun r => must r ∨ KeptSet cmdl ⟨true, mvcol, false⟩ r)
        fun r => may r ∨ Kept cmdl ⟨false, mvcol, false⟩ (total counts) r ∨ r = .fb .dec ∨
          r = .pfbpool .dec)) left := by
    unfold freeFramesAfterFailure
    refine Spec.ite (fun _ => ?_) fun kept => ?_
    · refine (freeFrames_spec (by grind [KeptSet, Kept]) ?_).strengthen ?_
      · intro i r owned
        have := apart r (.frame owned)
        grind [Kept, OfFrame, OfMem, OfMvcol, Entries]
      · exact fun _ _ start => start.widen (fun _ => id) (by grind [Kept])
    · have none : cmdl.ownsFrames = false := by
        grind [CmdLine.ownsFrames]
      exact Spec.pure fun _ _ start => start.widen (fun _ => id) (by grind [Kept])
  refine Spec.bind freed fun _ => ?_
  refine Spec.bind (release_between (fun r => must r ∨ KeptSet cmdl ⟨false, mvcol, false⟩ r ∨
      r = .pfbpool .dec) (fun r => may r ∨ Kept cmdl ⟨false, mvcol, false⟩ (total counts) r ∨
      r = .pfbpool .dec) ?_ (by grind)) fun _ => ?_
  · have := apart (.fb .dec) .fb
    grind [KeptSet]
  refine release_between _ _ ?_ (by grind)
  have := apart (.pfbpool .dec) .pool
  grind [KeptSet]

theorem keptSet_framebuffers {r : Resource} (set : KeptSet cmdl parts r) : OfFramebuffers r := by
  unfold KeptSet ShownSet at set
  grind [OfFramebuffers, OfDisplay]

/-! ### `decoder_free_framebuffer` -/

theorem freeDisplay_spec (fits : Fits cmdl enc counts parts) (inside : ∀ r, must r → may r)
    (apart : ∀ r, OfFramebuffers r → ¬ may r) :
    Spec (Has cmdl must may counts parts) (freeDisplay cmdl)
      (fun _ => Has cmdl must may counts parts.closed) left := by
  unfold freeDisplay
  cases shown : parts.shown with
  | true =>
      have shows := (fits.shown shown).1
      refine Spec.askSet ?_ (displayClose_spec fits inside apart fun _ => shown)
      cases scheme : cmdl.dstScheme <;>
        simp_all [CmdLine.shows, KeptSet, ShownSet]
  | false =>
      have same : parts.closed = parts := by
        rw [Parts.closed, ← shown]
      have outside := @apart_kept cmdl parts may apart (total counts) .display trivial
      rw [same] at outside ⊢
      exact Spec.askUnset outside (Spec.pure fun _ _ start => start)

theorem freeMvcols_spec {pool mvcol : Bool} (inside : ∀ r, must r → may r)
    (apart : ∀ r, OfFramebuffers r → ¬ may r) :
    Spec (Has cmdl must may counts ⟨pool, mvcol, false⟩) (freeMvcols (total counts))
      (fun _ => Has cmdl must may counts ⟨pool, false, false⟩) left := by
  unfold freeMvcols
  cases mvcol with
  | true =>
      refine Spec.askSet (by grind [KeptSet]) ?_
      have freed := @free_entries Resource Counts Exit _ OfMvcol
        (fun r => must r ∨ KeptSet cmdl ⟨pool, true, false⟩ r)
        (fun r => may r ∨ Kept cmdl ⟨pool, false, false⟩ (total counts) r ∨ r = .mvcolMemdesc)
        counts left (fun i => release (.phys (.mvcol i))) (total counts)
        (by grind [KeptSet, Kept]) ?_ (by grind [OfMvcol]) ?_
      · refine Spec.bind (freed.strengthen fun _ _ start => start.widen (fun _ => id)
          (by grind [Kept])) fun _ => ?_
        refine release_between _ _ ?_ (by grind)
        have := apart .mvcolMemdesc .memdesc
        grind [KeptSet]
      · intro i r owned
        have := apart r (.mvcol owned)
        grind [Kept, OfFrame, OfMem, OfMvcol, Entries]
      · intro i _ rest inside _ apart
        exact release_between _ _ (by grind [OfMvcol]) (by grind [OfMvcol])
  | false =>
      refine Spec.askUnset ?_ (Spec.pure fun _ _ start => start)
      have := apart .mvcolMemdesc .memdesc
      grind [Kept, OfFrame, OfMem, Entries]

theorem freeShown_spec (fits : Fits cmdl enc counts parts) (inside : ∀ r, must r → may r)
    (apart : ∀ r, OfFramebuffers r → ¬ may r) :
    Spec (Has cmdl must may counts parts) (freeShown cmdl (total counts))
      (fun _ => Has cmdl must may counts ⟨parts.pool, false, false⟩) left := by
  unfold freeShown
  refine Spec.ite (fun _ => ?_) fun hidden => ?_
  · exact Spec.bind (freeDisplay_spec fits inside apart) fun _ => freeMvcols_spec inside apart
  · have noMvcol : parts.mvcol = false := Bool.eq_false_iff.mpr fun set => hidden (fits.mvcol set)
    have noDisplay : parts.shown = false :=
      Bool.eq_false_iff.mpr fun set => hidden (fits.shown set).1
    have none : parts = ⟨parts.pool, false, false⟩ :=
      congrArg₂ (Parts.mk parts.pool) noMvcol noDisplay
    rw [none]
    exact Spec.pure fun _ _ start => start

theorem freeFrame_spec {pool : Bool} {rest : Resource → Prop} {i : Nat}
    (found : pool = true → must (.pfbpool .dec)) (absent : pool = false → ¬ rest (.pfbpool .dec))
    (inside : ∀ r, must r → rest r) (apart : ∀ r, pool = true ∧ OfFrame .dec i r → ¬ rest r) :
    Spec (Tidy counts (Between must fun r => rest r ∨ (pool = true ∧ OfFrame .dec i r)))
      (freeFrame i) (fun _ => Tidy counts (Between must rest)) left := by
  unfold freeFrame
  cases pool with
  | true =>
      refine Spec.askSet (found rfl) ?_
      refine (framebufFree_spec inside fun r owned => apart r ⟨rfl, owned⟩).strengthen ?_
      exact fun _ _ start => start.widen (fun _ => id) (by grind [OfFrame])
  | false =>
      refine Spec.askUnset (by grind) (Spec.pure fun _ _ start => ?_)
      exact start.widen (fun _ => id) (by grind)

theorem decoderFreeFramebuffer_spec (fits : Fits cmdl enc counts parts)
    (inside : ∀ r, must r → may r) (apart : ∀ r, OfFramebuffers r → ¬ may r) :
    Spec (Has cmdl must may counts parts) (decoderFreeFramebuffer cmdl)
      (fun _ => Tidy counts (Between must may)) left := by
  unfold decoderFreeFramebuffer
  refine Spec.askVars total ?_
  refine Spec.bind (freeShown_spec fits inside apart) fun _ => ?_
  have freed : Spec (Has cmdl must may counts ⟨parts.pool, false, false⟩)
      (freeFrames cmdl (total counts))
      (fun _ => Tidy counts (Between must fun r => may r ∨ r = .fb .dec ∨ r = .pfbpool .dec))
      left := by
    unfold freeFrames
    refine Spec.ite (fun owns => ?_) fun none => ?_
    · have loop := @free_entries Resource Counts Exit _
        (fun i r => parts.pool = true ∧ OfFrame .dec i r)
        (fun r => must r ∨ KeptSet cmdl ⟨parts.pool, false, false⟩ r)
        (fun r => may r ∨ (parts.pool = true ∧ (r = .fb .dec ∨ r = .pfbpool .dec))) counts left
        freeFrame (total counts) (by grind [KeptSet]) ?_ (by grind [OfFrame, OfMem]) ?_
      · refine (loop.strengthen fun _ _ start => ?_).relax fun _ _ _ reached => ?_
        · exact start.widen (fun _ => id) (by grind [Kept, Entries])
        · exact reached.widen (fun _ => .inl) (by grind)
      · intro i r owned
        have := apart r (.frame owned.2)
        grind [OfFrame, OfMem]
      · intro i _ rest inside outside apart'
        refine freeFrame_spec (by grind [KeptSet]) ?_ inside apart'
        have := apart (.pfbpool .dec) .pool
        have := outside (.pfbpool .dec)
        grind [Entries]
    · exact Spec.pure fun _ _ start => start.widen (fun _ => .inl) (by grind [Kept])
  refine Spec.bind freed fun _ => ?_
  refine Spec.bind (release_between must (fun r => may r ∨ r = .pfbpool .dec) ?_ (by grind))
    fun _ => release_between _ _ ?_ (by grind)
  · have := apart (.fb .dec) .fb
    grind
  · have := apart (.pfbpool .dec) .pool
    grind

variable (may) in
theorem release_leftovers {more : Resource → Prop} {resource : Resource}
    (apart : ¬ OfFramebuffers resource) (kept : ¬ must resource)
    (upper : ∀ r, more r → r ≠ resource → may r) :
    Spec (Leftovers cmdl enc must more) (release resource)
      (fun _ => Leftovers cmdl enc must may) left := by
  refine Spec.any fun counts => Spec.any fun parts => ?_
  intro store held ⟨fits, has⟩
  have released : Spec (Has cmdl must more counts parts) (release resource)
      (fun _ => Has cmdl must may counts parts) left := by
    refine release_between _ _ ?_ (by grind)
    intro r wanted
    refine ⟨wanted, ?_⟩
    rintro rfl
    exact wanted.elim kept fun set => apart (keptSet_framebuffers set)
  refine Spec.relax released (fun _ _ _ rest => ?_) store held has
  exact ⟨counts, parts, fits, rest⟩

theorem free_leftovers (inside : ∀ r, must r → may r) (apart : ∀ r, OfFramebuffers r → ¬ may r) :
    Spec (Leftovers cmdl enc must may) (decoderFreeFramebuffer cmdl)
      (fun _ store held => ∃ counts, counts.encTotalfb = enc ∧
        Tidy counts (Between must may) store held) left := by
  refine Spec.any fun counts => Spec.any fun parts => ?_
  intro store held ⟨fits, has⟩
  have freed : Spec (Has cmdl must may counts parts) (decoderFreeFramebuffer cmdl)
      (fun _ store held => ∃ counts, counts.encTotalfb = enc ∧
        Tidy counts (Between must may) store held) left :=
    (decoderFreeFramebuffer_spec fits inside apart).relax fun _ _ _ rest =>
      ⟨counts, fits.encoder, rest⟩
  exact freed store held has

/-! ### `decoder_allocate_framebuffer` -/

/-- A frame buffer among those of the decoder, where the ones before it are there. -/
theorem allocFrames_turn {exit : Exit} (room : total counts ≤ maxBufNum)
    (owns : cmdl.ownsFrames = true) (notIpu : cmdl.dstScheme ≠ .ipu)
    (jump : exit = .err ∨ exit = .err1) (inside : ∀ r, must r → may r)
    (apart : ∀ r, OfFramebuffers r → ¬ may r) {i : Nat} (below : i < total counts) :
    Spec (Tidy counts (Between (fun r => must r ∨ r = .pfbpool .dec)
        fun r => (may r ∨ r = .fb .dec ∨ r = .pfbpool .dec) ∨ Entries (OfFrame .dec) 0 i r))
      (allocFrame run.toSystem .dec exit i)
      (fun _ => Tidy counts (Between (fun r => must r ∨ r = .pfbpool .dec)
        fun r => (may r ∨ r = .fb .dec ∨ r = .pfbpool .dec) ∨ Entries (OfFrame .dec) 0 (i + 1) r))
      (allocateJumps cmdl counts.encTotalfb must may) := by
  refine allocFrame_spec below room (by grind) ?_ fun store held start => ?_
  · intro i r owned
    have := apart r (.frame owned)
    grind [OfFrame, OfMem]
  · have has : Has cmdl must may counts ⟨true, false, false⟩ store held :=
      start.widen (by grind [KeptSet]) (by grind [Kept])
    rcases jump with rfl | rfl
    · exact ⟨counts, rfl, has⟩
    · exact ⟨counts, ⟨true, false, false⟩, .onlyFrames rfl, rfl,
        fun ipu => absurd ipu notIpu, has⟩

theorem allocFrames_spec (room : total counts ≤ maxBufNum)
    (deblock : cmdl.dstScheme = .ipu → cmdl.deblockEn = 0) (inside : ∀ r, must r → may r)
    (apart : ∀ r, OfFramebuffers r → ¬ may r) :
    Spec (Tidy counts (Between (fun r => must r ∨ r = .pfbpool .dec)
        fun r => may r ∨ r = .fb .dec ∨ r = .pfbpool .dec)) (allocFrames run cmdl)
      (fun _ => Has cmdl must may counts ⟨true, false, false⟩)
      (allocateJumps cmdl counts.encTotalfb must may) := by
  unfold allocFrames
  refine Spec.ite (fun owns => ?_) fun none => ?_
  · have notIpu : cmdl.dstScheme ≠ .ipu := by
      grind [CmdLine.ownsFrames]
    have turn (exit : Exit) (jump : exit = .err ∨ exit = .err1) (i : Nat)
        (below : i < total counts) :=
      @allocFrames_turn run cmdl counts must may exit room owns notIpu jump inside apart i below
    refine Spec.askVars id ?_
    refine Spec.ite (fun _ => ?_) fun _ => ?_
    · have all := Spec.forM (turn .err (.inl rfl))
      refine (all.strengthen fun _ _ start => ?_).relax fun _ _ _ reached => ?_
      · exact start.widen (fun _ => id) (by grind)
      · exact reached.widen (by grind [KeptSet]) (by grind [Kept])
    · have decoded := @Spec.forM _ _ _ _ _ _ _ counts.regfbcount fun i below =>
        turn .err (.inl rfl) i (by simp only [total]; omega)
      have processed := @Spec.forM _ _ _ _ (allocateJumps cmdl counts.encTotalfb must may)
        (fun i => allocFrame run.toSystem .dec .err1 (counts.regfbcount + i))
        (fun i => Tidy counts (Between (fun r => must r ∨ r = .pfbpool .dec)
          fun r => (may r ∨ r = .fb .dec ∨ r = .pfbpool .dec) ∨
            Entries (OfFrame .dec) 0 (counts.regfbcount + i) r)) counts.extrafb
        fun i below => turn .err1 (.inr rfl) _ (by simp only [total]; omega)
      have all := decoded.bind fun _ => processed
      refine (all.strengthen fun _ _ start => ?_).relax fun _ _ _ reached => ?_
      · exact start.widen (fun _ => id) (by grind)
      · exact reached.widen (by grind [KeptSet]) (by grind [Kept, total])
  · exact Spec.pure fun _ _ start => start.widen (by grind [KeptSet]) (by grind [Kept])

theorem displayOpen_spec {n : Nat} (spared : Spared run cmdl n) (shows : cmdl.shows = true)
    (inside : ∀ r, must r → may r) (apart : ∀ r, OfDisplay r → ¬ may r) :
    Spec (Tidy counts (Between must may)) (displayOpen run cmdl n)
      (fun opened => if opened then Tidy { counts with nframes := n }
          (Between (fun r => must r ∨ ShownSet cmdl r) fun r => may r ∨ Shown cmdl n r)
        else Tidy counts (Between must may)) left := by
  unfold displayOpen
  split
  · rename_i scheme
    have opened := @v4lDisplayOpen_spec run.toSystem counts must may left n (spared.v4l scheme)
      inside apart
    simpa only [ShownSet, Shown, scheme] using opened
  · rename_i scheme
    have opened := @ipuDisplayOpen_spec run.toSystem counts must may left n (spared.ipu scheme)
      inside apart
    simpa only [ShownSet, Shown, scheme] using opened
  · rename_i other another
    simp only [CmdLine.shows, Bool.or_eq_true, decide_eq_true_eq] at shows
    exact absurd shows (not_or.mpr ⟨other, another⟩)

/-- On the mx27 there are no buffers of motion vectors. -/
theorem allocMvcols_none (mx27 : run.mx27 = true)
    (fits : Fits cmdl enc counts ⟨true, false, true⟩) :
    Spec (Has cmdl must may counts ⟨true, false, true⟩) (allocMvcols run cmdl (total counts))
      (fun _ => Has cmdl must may counts ⟨true, false, true⟩)
      (allocateJumps cmdl enc must may) := by
  unfold allocMvcols
  rw [mx27]
  have none : Spec (Has cmdl must may counts ⟨true, false, true⟩)
      (discard (acquire (!true && run.gives .mvcolMemdesc) .mvcolMemdesc))
      (fun _ => Has cmdl must may counts ⟨true, false, true⟩) (allocateJumps cmdl enc must may) :=
    Spec.pure fun _ _ start => start
  refine Spec.bind none fun _ => ?_
  refine @Spec.forM Resource Counts Exit _ (allocateJumps cmdl enc must may) (allocMvcol run cmdl)
    (fun _ => Has cmdl must may counts ⟨true, false, true⟩) _ fun i _ => ?_
  unfold allocMvcol
  refine Spec.ite (fun _ => Spec.quit fun _ _ start => ?_) fun _ => ?_
  · exact ⟨counts, ⟨true, false, true⟩, fits, rfl, fun _ => rfl, start⟩
  · rw [if_pos mx27]
    exact Spec.pure fun _ _ start => start

/-- The buffers of motion vectors up to one of them. -/
def Mvcols (cmdl : CmdLine) (must may : Resource → Prop) (counts : Counts) (i : Nat) :
    Assertion Resource Counts :=
  Tidy counts (Between (fun r => must r ∨ KeptSet cmdl ⟨true, true, true⟩ r) fun r =>
    may r ∨ Kept cmdl ⟨true, false, true⟩ (total counts) r ∨ r = .mvcolMemdesc ∨
      Entries OfMvcol 0 i r)

theorem mvcol_new (apart : ∀ r, OfFramebuffers r → ¬ may r) {n : Nat} {r : Resource}
    (owned : r = .mvcolMemdesc ∨ ∃ i, OfMvcol i r) :
    ¬ (may r ∨ Kept cmdl ⟨true, false, true⟩ n r) := by
  have outside : ¬ may r := by
    rcases owned with rfl | ⟨_, owned⟩
    · exact apart .mvcolMemdesc .memdesc
    · exact apart r (.mvcol owned)
  have hidden : ¬ Shown cmdl n r := by
    unfold Shown
    split
    · grind [V4lOpen, Entries, OfV4lBuf, OfMvcol]
    · grind [IpuOpen, Entries, OfIpuBuf, OfMvcol]
    · exact id
  grind [Kept, Entries, OfFrame, OfMem, OfMvcol]

theorem allocMvcol_spec (mx27 : run.mx27 = false) (fits : Fits cmdl enc counts ⟨true, true, true⟩)
    (apart : ∀ r, OfFramebuffers r → ¬ may r) {i : Nat} (below : i < total counts) :
    Spec (Mvcols cmdl must may counts i) (allocMvcol run cmdl i)
      (fun _ => Mvcols cmdl must may counts (i + 1)) (allocateJumps cmdl enc must may) := by
  have leaves : ∀ store held, Mvcols cmdl must may counts i store held →
      allocateJumps cmdl enc must may .err1 store held := fun store held start =>
    ⟨counts, ⟨true, true, true⟩, fits, rfl, fun _ => rfl,
      start.widen (fun _ => id) (by grind [Kept, Entries])⟩
  have new := @mvcol_new cmdl may apart (total counts) (.phys (.mvcol i)) (.inr ⟨i, rfl⟩)
  have more := @entries_last _ OfMvcol 0 i (Nat.zero_le i)
  unfold allocMvcol
  refine Spec.ite (fun _ => Spec.quit leaves) fun _ => ?_
  rw [if_neg (by simp [mx27])]
  refine Spec.bind (deref_between (by grind [KeptSet])) fun _ => ?_
  exact take_between _ _ (by grind [Entries, OfMvcol]) (fun _ => .inl) (by grind [OfMvcol]) leaves

theorem allocMvcols_all (mx27 : run.mx27 = false) (given : run.gives .mvcolMemdesc = true)
    (fits : Fits cmdl enc counts ⟨true, true, true⟩) (apart : ∀ r, OfFramebuffers r → ¬ may r) :
    Spec (Has cmdl must may counts ⟨true, false, true⟩) (allocMvcols run cmdl (total counts))
      (fun _ => Has cmdl must may counts ⟨true, true, true⟩) (allocateJumps cmdl enc must may) := by
  have new := @mvcol_new cmdl may apart (total counts) .mvcolMemdesc (.inl rfl)
  unfold allocMvcols
  have array : Spec (Has cmdl must may counts ⟨true, false, true⟩)
      (discard (acquire (!run.mx27 && run.gives .mvcolMemdesc) .mvcolMemdesc))
      (fun _ => Mvcols cmdl must may counts 0) (allocateJumps cmdl enc must may) := by
    refine Spec.acquire (fun r => must r ∨ KeptSet cmdl ⟨true, true, true⟩ r) _ new
      (by grind [KeptSet]) ?_ (fun _ => Spec.pure fun _ _ start => start) fun refused => ?_
    · grind
    · rw [mx27, given] at refused
      cases refused
  refine Spec.bind array fun _ => ?_
  have loop := @Spec.forM Resource Counts Exit _ (allocateJumps cmdl enc must may)
    (allocMvcol run cmdl) (Mvcols cmdl must may counts) (total counts) fun i below =>
      allocMvcol_spec mx27 fits apart below
  exact loop.relax fun _ _ _ reached => reached.widen (fun _ => id) (by grind [Kept])

theorem allocMvcols_spec (spared : Spared run cmdl (total counts)) (shows : cmdl.shows = true)
    (nframes : counts.nframes = total counts) (apart : ∀ r, OfFramebuffers r → ¬ may r) :
    Spec (Has cmdl must may counts ⟨true, false, true⟩)
      (if cmdl.deblockEn = 0 then allocMvcols run cmdl (total counts) else pure ())
      (fun _ => Ready cmdl counts.encTotalfb must may)
      (allocateJumps cmdl counts.encTotalfb must may) := by
  have fits (mvcol : Bool) : Fits cmdl counts.encTotalfb counts ⟨true, mvcol, true⟩ :=
    ⟨fun _ => ⟨shows, nframes⟩, fun _ => shows, rfl⟩
  have ready (mvcol : Bool) : ∀ store held,
      Has cmdl must may counts ⟨true, mvcol, true⟩ store held →
      Ready cmdl counts.encTotalfb must may store held := fun _ _ has =>
    ⟨counts, _, fits mvcol, rfl, fun _ => rfl, has⟩
  refine Spec.ite (fun _ => ?_) fun _ => Spec.pure (ready false)
  cases mx27 : run.mx27 with
  | true =>
      exact (allocMvcols_none mx27 (fits false)).relax fun _ => ready false
  | false =>
      exact (allocMvcols_all mx27 (spared.mvcol shows mx27) (fits true) apart).relax
        fun _ => ready true

theorem allocDisplay_spec (spared : Spared run cmdl (total counts))
    (inside : ∀ r, must r → may r) (apart : ∀ r, OfFramebuffers r → ¬ may r) :
    Spec (Has cmdl must may counts ⟨true, false, false⟩) (allocDisplay run cmdl (total counts))
      (fun _ => Ready cmdl counts.encTotalfb must may)
      (allocateJumps cmdl counts.encTotalfb must may) := by
  unfold allocDisplay
  refine Spec.ite (fun shows => ?_) fun hidden => ?_
  · refine Spec.bind (displayOpen_spec spared shows (by grind [KeptSet, Kept])
      (@apart_kept cmdl ⟨true, false, true⟩ may apart (total counts))) fun opened => ?_
    cases opened with
    | false => exact Spec.quit fun _ _ start => ⟨counts, rfl, start⟩
    | true =>
        have mvcols := @allocMvcols_spec run cmdl { counts with nframes := total counts } must may
          spared shows rfl apart
        exact mvcols.strengthen fun _ _ start =>
          start.widen (by grind [KeptSet]) (by grind [Kept, total])
  · refine Spec.pure fun _ _ start =>
      ⟨counts, ⟨true, false, false⟩, .onlyFrames rfl, rfl, fun shows => absurd shows hidden,
        start⟩

theorem allocateBody_spec (spared : Spared run cmdl (total (countFramebuffers run cmdl counts)))
    (inside : ∀ r, must r → may r) (apart : ∀ r, OfFramebuffers r → ¬ may r) :
    Spec (Tidy counts (Between must may)) (allocateBody run cmdl)
      (fun _ => Ready cmdl counts.encTotalfb must may)
      (allocateJumps cmdl counts.encTotalfb must may) := by
  have none : ∀ store held, Tidy (countFramebuffers run cmdl counts) (Between must may) store held →
      Leftovers cmdl counts.encTotalfb must may store held := fun store held start =>
    ⟨countFramebuffers run cmdl counts, ⟨false, false, false⟩, .onlyFrames rfl,
      start.widen (by grind [KeptSet]) fun _ => .inl⟩
  unfold allocateBody
  refine Spec.bind assign_tidy fun _ => ?_
  refine Spec.askVars total ?_
  refine Spec.bind (take_between must (fun r => may r ∨ r = .fb .dec)
    (apart (.fb .dec) .fb) (fun _ => .inl) (by grind) none) fun _ => ?_
  refine Spec.acquire (fun r => must r ∨ r = .pfbpool .dec)
    (fun r => may r ∨ r = .fb .dec ∨ r = .pfbpool .dec) ?_ (by grind) (by grind) (fun _ => ?_)
    fun _ => ?_
  · have := apart (.pfbpool .dec) .pool
    grind
  · refine Spec.bind (allocFrames_spec spared.room spared.deblock inside apart) fun _ => ?_
    refine Spec.bind (allocDisplay_spec spared inside apart) fun _ => ?_
    exact step_spec fun _ _ _ start => start.allocated
  · have := apart (.fb .dec) .fb
    refine Spec.bind (release_between must may (by grind) (by grind)) fun _ => ?_
    exact Spec.quit none

theorem decoderAllocateFramebuffer_spec
    (spared : Spared run cmdl (total (countFramebuffers run cmdl counts)))
    (inside : ∀ r, must r → may r) (apart : ∀ r, OfFramebuffers r → ¬ may r) :
    Spec (Tidy counts (Between must may)) (decoderAllocateFramebuffer run cmdl)
      (fun allocated =>
        if allocated then Ready cmdl counts.encTotalfb must may
        else Leftovers cmdl counts.encTotalfb must may) left := by
  refine Spec.handle (allocateBody_spec spared inside apart) (fun _ => ?_) fun label => ?_
  · exact Spec.pure fun _ _ start => start
  · cases label with
    | returned => exact Spec.pure fun _ _ start => start
    | err =>
        refine Spec.any fun counts => ?_
        intro store held ⟨same, has⟩
        refine Spec.bind (freeAfterFailure_spec spared.deblock inside apart) (fun _ => ?_)
          store held has
        exact Spec.pure fun _ _ left => ⟨counts, ⟨false, false, false⟩, .onlyFrames same, left⟩
    | err1 =>
        refine Spec.any fun counts => Spec.any fun parts => ?_
        intro store held ⟨fits, pool, opened, has⟩
        have closed : parts.closed = ⟨true, parts.mvcol, false⟩ := by
          rw [Parts.closed, pool]
        refine Spec.bind (displayClose_spec fits inside apart opened) (fun _ => ?_) store held has
        rw [closed]
        refine Spec.bind (freeAfterFailure_spec spared.deblock inside apart) fun _ => ?_
        refine Spec.pure fun _ _ left => ?_
        exact ⟨counts, ⟨false, parts.mvcol, false⟩, ⟨nofun, fits.mvcol, fits.encoder⟩, left⟩
    | segfault => exact fun _ _ start => start.elim
    | _ => exact fun _ _ start => start.elim

/-! ### `decode_test` -/

def Setup (cmdl : CmdLine) (r : Resource) : Prop :=
  r = .object .dec ∨ r = .phys (.bitstream .dec) ∨ r = .virt (.bitstream .dec) ∨
    (cmdl.format = .avc ∧ r = .phys .ps)

def Working (cmdl : CmdLine) (r : Resource) : Prop :=
  Setup cmdl r ∨ r = .handle .dec ∨ (cmdl.format = .avc ∧ r = .phys .slice) ∨
    (cmdl.format = .vp8 ∧ r = .phys .vp8Mbparam)

def Remaining (cmdl : CmdLine) (r : Resource) : Prop :=
  Setup cmdl r ∨ (cmdl.format = .avc ∧ r = .phys .slice) ∨
    (cmdl.format = .vp8 ∧ r = .phys .vp8Mbparam)

def decodeJumps (cmdl : CmdLine) : Exit → Assertion Resource Counts
  | .err => fun store held => ∃ counts,
      Tidy counts (Between (fun r => r = .object .dec) (Remaining cmdl)) store held
  | .err1 => Leftovers cmdl.opened 0 (fun r => r = .object .dec) (Working cmdl)
  | _ => fun _ _ => False

theorem giveBackIf_spec {mem : Mem} {may more : Resource → Prop} {condition : Bool}
    (owned : condition = true → may (.phys mem))
    (others : ∀ r, more r ↔ may r ∧ ¬ (condition = true ∧ r = .phys mem)) :
    Spec (Winding must may) (giveBackIf condition mem) (fun _ => Winding must more) left := by
  unfold giveBackIf
  refine Spec.ite (fun yes => giveBack_winding (owned yes) (by grind)) fun no => ?_
  have same : more = may := funext fun r => propext (by grind)
  rw [same]
  exact Spec.pure fun _ _ start => start

theorem cleanUpErr_spec :
    Spec (Tidy counts (Between (fun r => r = .object .dec) (Remaining cmdl))) (cleanUpErr cmdl)
      (fun _ _ held => held = nothing) left := by
  have rest : Spec (Winding (fun r => r = .object .dec) (Remaining cmdl)) (cleanUpErr cmdl)
      (fun _ => Winding (fun r => r = .object .dec) fun _ => False) left := by
    unfold cleanUpErr
    refine Spec.bind (@giveBackIf_spec _ _ _ _
      (fun r => Setup cmdl r ∨ (cmdl.format = .vp8 ∧ r = .phys .vp8Mbparam)) _
      (by grind [Remaining]) (by grind [Remaining, Setup])) fun _ => ?_
    refine Spec.bind (@giveBackIf_spec _ _ _ _
      (fun r => r = .object .dec ∨ r = .phys (.bitstream .dec) ∨ r = .virt (.bitstream .dec) ∨
        (cmdl.format = .vp8 ∧ r = .phys .vp8Mbparam)) _
      (by grind [Setup]) (by grind [Setup])) fun _ => ?_
    refine Spec.bind (@giveBackIf_spec _ _ _ _
      (fun r => r = .object .dec ∨ r = .phys (.bitstream .dec) ∨ r = .virt (.bitstream .dec)) _
      (by grind) (by grind)) fun _ => ?_
    refine Spec.bind (deref_winding rfl (.inl rfl)) fun _ => ?_
    refine Spec.bind (@giveBack_winding _ _ _ _ _ _
      (fun r => r = .object .dec ∨ r = .phys (.bitstream .dec)) _ _ (by grind)
      (by grind)) fun _ => ?_
    refine Spec.bind (@giveBack_winding _ _ _ _ _ _ (fun r => r = .object .dec) _ _ (by grind)
      (by grind)) fun _ => ?_
    exact giveBack_winding rfl (by grind)
  exact (rest.strengthen fun _ _ start => start.winding).relax fun _ _ _ reached =>
    reached.nothing fun _ => id

theorem working_apart (r : Resource) (owned : OfFramebuffers r) : ¬ Working cmdl r := by
  cases r <;> grind [OfFramebuffers, OfDisplay, OfFrame, OfMem, OfMvcol, Working, Setup]

theorem remaining_apart (r : Resource) (owned : OfFramebuffers r) : ¬ Remaining cmdl r := by
  have := @working_apart cmdl r owned
  grind [Remaining, Working]

theorem cleanUpErr1_spec :
    Spec (Leftovers cmdl.opened 0 (fun r => r = .object .dec) (Working cmdl)) (cleanUpErr1 cmdl)
      (fun _ _ held => held = nothing) left := by
  unfold cleanUpErr1
  refine Spec.bind (release_leftovers (Remaining cmdl)
    (by grind [OfFramebuffers, OfDisplay, OfFrame, OfMem, OfMvcol]) (by grind)
    (by grind [Working, Remaining])) fun _ => ?_
  refine Spec.bind (free_leftovers (by grind [Remaining, Setup]) fun r => remaining_apart r)
    fun _ => ?_
  refine Spec.any fun counts => ?_
  rintro store held ⟨-, start⟩
  exact cleanUpErr_spec store held start

theorem takeIf_spec {mem : Mem} {may : Resource → Prop} {condition : Bool} {exit : Exit}
    (new : condition = true → ¬ may (.phys mem))
    (leaves : ∀ store held, Tidy counts (Between must may) store held → left exit store held) :
    Spec (Tidy counts (Between must may)) (takeIf run condition mem exit)
      (fun _ => Tidy counts
        (Between must fun r => may r ∨ (condition = true ∧ r = .phys mem))) left := by
  unfold takeIf
  refine Spec.ite (fun yes => ?_) fun no => ?_
  · exact take_between _ _ (new yes) (fun _ => .inl) (by grind) leaves
  · exact Spec.pure fun _ _ start => start.widen (fun _ => id) fun _ => .inl

def Run.needs (run : Run) (cmdl : CmdLine) : Counts :=
  countFramebuffers run cmdl ⟨run.regfbcount, 0, 0, 0⟩

theorem decoderParse_spec {exit : Exit}
    (leaves : ∀ regfbcount store held, Tidy { counts with regfbcount := regfbcount }
      (Between must may) store held → left exit store held) :
    Spec (Tidy counts (Between must may)) (decoderParse run exit)
      (fun _ => Tidy { counts with regfbcount := run.regfbcount } (Between must may)) left := by
  unfold decoderParse
  refine Spec.bind (step_spec fun _ => leaves counts.regfbcount) fun _ => ?_
  refine Spec.bind assign_tidy fun _ => ?_
  exact step_spec fun _ => leaves run.regfbcount

/-- A jump to `err1` where no frame buffer has been asked for. -/
theorem jump_err1 (within : ∀ r, may r → Working cmdl r) (regfbcount : Nat)
    (store : Store Resource Counts) (held : Resource → Bool)
    (tidy : Tidy ⟨regfbcount, 0, 0, 0⟩ (Between (fun r => r = .object .dec) may) store held) :
    decodeJumps cmdl .err1 store held :=
  ⟨⟨regfbcount, 0, 0, 0⟩, ⟨false, false, false⟩, .onlyFrames rfl,
    tidy.widen (by grind [KeptSet]) fun r taken => .inl (within r taken)⟩

theorem decodeBody_spec (object : run.gives (.object .dec) = true)
    (spared : Spared run cmdl.opened (total (run.needs cmdl.opened))) :
    Spec (Tidy ⟨0, 0, 0, 0⟩ (Between (fun _ => False) fun _ => False)) (decodeBody run cmdl)
      (fun _ => Leftovers cmdl.opened 0 (fun r => r = .object .dec) (Working cmdl))
      (decodeJumps cmdl) := by
  unfold decodeBody
  refine Spec.bind (take_cases (fun r => r = .object .dec) (fun r => r = .object .dec) id
    (fun _ => .inr) (by grind) fun refused => Bool.noConfusion (object.symm.trans refused)) fun _ => ?_
  -- up to here the label `err` finds them
  have jump_err {may : Resource → Prop} (within : ∀ r, may r → Remaining cmdl r)
      (store : Store Resource Counts) (held : Resource → Bool)
      (tidy : Tidy ⟨0, 0, 0, 0⟩ (Between (fun r => r = .object .dec) may) store held) :
      decodeJumps cmdl .err store held :=
    ⟨_, tidy.widen (fun _ => id) within⟩
  refine Spec.bind (take_between _ (fun r => r = .object .dec ∨ r = .phys (.bitstream .dec))
    (by grind) (fun _ => .inl) (by grind) (jump_err (by grind [Remaining, Setup]))) fun _ => ?_
  refine Spec.bind (take_between _ (fun r => r = .object .dec ∨ r = .phys (.bitstream .dec) ∨
    r = .virt (.bitstream .dec)) (by grind) (fun _ => .inl) (by grind)
    (jump_err (by grind [Remaining, Setup]))) fun _ => ?_
  refine Spec.bind (takeIf_spec (by grind) (jump_err (by grind [Remaining, Setup]))) fun _ => ?_
  refine Spec.bind (take_between _ (fun r => Setup cmdl r ∨ r = .handle .dec) (by grind)
    (fun _ => .inl) (by grind [Setup]) (jump_err (by grind [Remaining, Setup]))) fun _ => ?_
  refine Spec.bind (step_spec fun _ => jump_err1 (by grind [Working]) 0) fun _ => ?_
  refine Spec.bind (decoderParse_spec (jump_err1 (by grind [Working]))) fun _ => ?_
  refine Spec.bind (takeIf_spec (by grind [Setup]) (jump_err1 (by grind [Working]) _)) fun _ => ?_
  refine Spec.bind (takeIf_spec (by grind [Setup]) (jump_err1 (by grind [Working]) _)) fun _ => ?_
  have allocated := @decoderAllocateFramebuffer_spec run cmdl.opened ⟨run.regfbcount, 0, 0, 0⟩
    (fun r => r = .object .dec) (Working cmdl) (decodeJumps cmdl) spared (by grind [Working, Setup])
    working_apart
  refine Spec.bind (allocated.strengthen fun _ _ start => start.widen (fun _ => id)
    (by grind [Working])) fun opened => ?_
  cases opened with
  | true => exact Spec.pure fun _ _ start => start.leftovers
  | false => exact Spec.quit fun _ _ start => start

end Specs

/-- The display shows six pictures and gives no motion vectors for the fourth. -/
def fewMvcols : Run where
  gives := fun r => decide (r ≠ .phys (.mvcol 3))
  does := fun _ => true
  mx6x := true
  mx27 := false
  minfbcount := 4
  extendedFbcount := 2
  interlace := false

def deblocked : CmdLine := ⟨.avc, .file, .v4l2, 1, false, false, .linear, 0⟩

/-- A buffer of the display that cannot be mapped stays taken. -/
example : (settle nothing (decodeTest { fewMvcols with gives := fun r => decide (r ≠ .v4lMap 3) }
    deblocked initial).log).map (fun held => held (.v4lBuf 3)) = some true := by decide

/-- Without an object the label `err` looks into a null pointer. -/
example : (decodeTest { fewMvcols with gives := fun _ => false } deblocked initial).value =
    .error .segfault := by rfl

end ImxTest.Vpu.DecodeTest
