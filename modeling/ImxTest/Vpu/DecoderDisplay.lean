import ImxTest.Vpu.DisplayClient

/-!
# `decoder_start` with a V4L2 display

The loop shows the VPU's own buffers, or with post-processing the buffers behind
them, or with motion JPEG all the buffers in turn.  Every operation on a buffer is
safe for its owner in each of these ways, in both display modes and however the
display thread interleaves.
-/

set_option autoImplicit false

namespace ImxTest.Vpu.DecoderDisplay

open ImxTest.Lib.Run
open ImxTest.Vpu.Ownership
open ImxTest.Vpu.DisplayTurn
open ImxTest.Vpu.V4lDisplay
open ImxTest.Vpu.DisplayClient

/-- The VPU writes pictures to `rotid`. -/
def rotates (dec : Decode) : Bool := dec.postProcessing || dec.mjpg

def setRotatorOps (dec : Decode) (regs : Regs) : List Op :=
  if rotates dec then [.setRotatorOutput regs.rotid] else []

def startRegs (dec : Decode) : Regs where
  dispClrIndex := -1
  rotid := if dec.mjpg then 0 else if dec.postProcessing then dec.regfbcount else 0
  indexFrameDisplay := 0

/-- No picture: the buffer that waits is cleared, but not in performance mode. -/
def decoderNoPicture (dec : Decode) (regs : Regs) (indexFrameDisplay : Int) :
    List Op × Regs × Option Int :=
  if dec.performance then (setRotatorOps dec regs, regs, none)
  else
    (setRotatorOps dec regs ++ clrOps (!dec.mjpg) regs.dispClrIndex,
      { regs with dispClrIndex := indexFrameDisplay }, none)

def decoderOnOutput (dec : Decode) (regs : Regs) : Output → List Op × Regs × Option Int
  | .index index =>
      let ops := setRotatorOps dec regs ++ [.output index]
      let indexFrameDisplay : Int := if dec.mjpg ∧ index = 0 then regs.rotid else index
      if rotates dec then
        -- delay one more frame for PP
        if dec.mjpg = false ∧ regs.dispClrIndex < 0 then
          (ops, { regs with dispClrIndex := indexFrameDisplay }, none)
        else (ops, { regs with indexFrameDisplay := indexFrameDisplay }, some regs.rotid)
      else (ops, { regs with indexFrameDisplay := indexFrameDisplay }, some indexFrameDisplay)
  | .minus2 => decoderNoPicture dec regs (-2)
  | .minus3 => decoderNoPicture dec regs (-3)

def decoderRecycle (dec : Decode) (regs : Regs) (index : Int) : List Op × Regs :=
  let ops := clrOps (!dec.mjpg) regs.dispClrIndex
  if dec.mjpg then
    let rotid := (regs.rotid + 1).tmod dec.regfbcount
    (ops ++ [.rotid rotid], { regs with rotid := rotid })
  else if dec.postProcessing then
    let rotid :=
      if index ≠ -1 then index
      else (regs.rotid + 1 - dec.regfbcount).tmod dec.extrafb + dec.regfbcount
    (ops ++ [.rotid rotid],
      { regs with dispClrIndex := regs.indexFrameDisplay, rotid := rotid })
  else (ops, { regs with dispClrIndex := index })

def decoderStart (dec : Decode) : Client Regs where
  start := startRegs dec
  reports := reportsRegistered dec
  onOutput := decoderOnOutput dec
  getBuf := true
  recycle := decoderRecycle dec

/-! ## The three ways of the loop -/

section Ways
variable {dec : Decode}

theorem decoderNoPicture_passes (flags : dec.mjpg = false) (regs : Regs)
    (indexFrameDisplay : Int) (negative : indexFrameDisplay < 0) :
    Passes (setRotatorOps dec regs) regs (decoderNoPicture dec regs indexFrameDisplay) := by
  unfold decoderNoPicture
  split
  · exact ⟨rfl, rfl, .inl ⟨rfl, rfl⟩⟩
  · exact ⟨rfl, rfl, .inr ⟨by rw [flags]; rfl, negative⟩⟩

theorem decoderStart_direct (plain : dec.postProcessing = false) (flags : dec.mjpg = false) :
    DirectClient (decoderStart dec) where
  start := by simp [decoderStart, startRegs]
  reports := reports_unflagged flags
  picture regs index := by
    simp [decoderStart, decoderOnOutput, setRotatorOps, rotates, plain, flags]
  noPicture regs output no := by
    have none : setRotatorOps dec regs = [] := by simp [setRotatorOps, rotates, plain, flags]
    rw [← none]
    rcases List.mem_pair.mp no with rfl | rfl
    · exact decoderNoPicture_passes flags regs (-2) (by decide)
    · exact decoderNoPicture_passes flags regs (-3) (by decide)
  recycle regs index := by
    simp [decoderStart, decoderRecycle, plain, flags]

theorem decoderStart_rotating (rotated : dec.postProcessing = true) (flags : dec.mjpg = false) :
    RotatingClient dec (decoderStart dec) where
  start := by simp [decoderStart, startRegs, rotated, flags]
  reports log index reports := ((reports_iff dec log index).mp reports).1
  picture regs index := by
    by_cases waiting : regs.dispClrIndex < 0
    · refine ⟨{ regs with dispClrIndex := index }, .inr ⟨?_, rfl, rfl⟩⟩
      simp [decoderStart, decoderOnOutput, setRotatorOps, rotates, rotated, flags, waiting]
    · refine ⟨{ regs with indexFrameDisplay := index }, .inl ⟨?_, rfl, rfl, rfl⟩⟩
      simp [decoderStart, decoderOnOutput, setRotatorOps, rotates, rotated, flags, waiting]
  noPicture regs output no := by
    have one : setRotatorOps dec regs = [.setRotatorOutput regs.rotid] := by
      simp [setRotatorOps, rotates, rotated]
    rw [← one]
    rcases List.mem_pair.mp no with rfl | rfl
    · exact decoderNoPicture_passes flags regs (-2) (by decide)
    · exact decoderNoPicture_passes flags regs (-3) (by decide)
  recycle regs window ring := by
    have extra : dec.extrafb = dec.kept + 1 := by
      simp [Decode.extrafb, rotated, Decode.rotBufCount, Decode.kept]
    have next := ring.back_eq
      ((regs.rotid + 1 - dec.regfbcount).tmod ((dec.kept + 1 : Nat) : Int) + dec.regfbcount)
    rw [ring.next_eq] at next
    simpa [decoderStart, decoderRecycle, rotated, flags, extra] using next

theorem decoderStart_turning (mjpg : dec.mjpg = true) : TurningClient dec (decoderStart dec) where
  start := by simp [decoderStart, startRegs, mjpg]
  picture regs index := by
    simp [decoderStart, decoderOnOutput, setRotatorOps, rotates, mjpg]
  noPicture regs output no := by
    rcases List.mem_pair.mp no with rfl | rfl
    all_goals
      simp only [decoderStart, decoderOnOutput, decoderNoPicture, setRotatorOps, rotates, mjpg,
        Bool.or_true, if_true, Bool.not_true, clrOps_false, List.append_nil]
      split
      · exact ⟨_, rfl, rfl⟩
      · exact ⟨_, rfl, rfl⟩
  recycle regs index := by
    simp [decoderStart, decoderRecycle, mjpg]

end Ways

/-- No buffer has two owners in any interleaving: a buffer in the driver is not
queued again, chosen as a target or cleared, and one that the VPU shows itself is
cleared at most once each time. -/
theorem decoderStart_owned (dec : Decode) (kept : 1 ≤ dec.kept) (registered : 1 ≤ dec.minfbcount)
    (list : Nat → Int) (bufIndex : Int) (acts : List Act) (sys : Sys Regs)
    (run : runEvents (sysStep dec (decoderStart dec)) acts
      (.start dec (decoderStart dec) list bufIndex) = some sys) :
    Owned (!dec.postProcessing && !dec.mjpg) sys.log := by
  refine owned_of_model (fun _ => rfl) _ ?_ list bufIndex acts sys run
  intro model reaches
  cases mjpg : dec.mjpg with
  | true =>
      have room : dec.kept + 1 ≤ dec.regfbcount := by
        unfold Decode.kept at kept ⊢
        omega
      rw [Bool.not_true, Bool.and_false]
      exact ((decoderStart_turning mjpg).turning room reaches).shows.owned
  | false =>
      cases rotated : dec.postProcessing with
      | true => exact ((decoderStart_rotating rotated mjpg).rotating reaches).shows.owned
      | false => exact ((decoderStart_direct rotated mjpg).direct true reaches).shows.owned

/-- Performance mode with a window of one: the thread hands buffer 0 back while
buffer 1 is shown, and the loop clears it with the next picture. -/
theorem decoderStart_owned_handing :
    let dec : Decode := ⟨3, 2, false, false, true⟩
    let hands : List Act :=
      [Act.decoder, Act.decoder] ++ List.replicate 5 Act.display ++ List.replicate 5 Act.decoder
    let acts : List Act :=
      [Act.output (.index 0)] ++ List.replicate 5 Act.decoder ++ [Act.output (.index 1)] ++ hands ++
        [Act.output .minus2, .output (.index 2)] ++ hands
    ∃ sys : Sys Regs, runEvents (sysStep dec (decoderStart dec)) acts
        (.start dec (decoderStart dec) (fun _ => 0) 0) = some sys ∧
      sys.log = [.output 0, .qbuf 0, .output 1, .qbuf 1, .dqbuf 0, .output 2, .qbuf 2, .dqbuf 1,
        .clrDispFlag 0] ∧
      Owned true sys.log := by
  intro dec hands acts
  have logged : (runEvents (sysStep dec (decoderStart dec)) acts
      (.start dec (decoderStart dec) (fun _ => 0) 0)).map (·.log) =
      some [.output 0, .qbuf 0, .output 1, .qbuf 1, .dqbuf 0, .output 2, .qbuf 2, .dqbuf 1,
        .clrDispFlag 0] := by
    decide +kernel
  obtain ⟨sys, run, log⟩ := Option.map_eq_some_iff.mp logged
  exact ⟨sys, run, log, decoderStart_owned dec (by decide) (by decide) _ _ _ sys run⟩

end ImxTest.Vpu.DecoderDisplay
