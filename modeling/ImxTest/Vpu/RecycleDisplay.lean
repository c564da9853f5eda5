import ImxTest.Vpu.DecoderDisplay

/-!
# Loopback and transcoding with a V4L2 display

`decode` of the loopback test and `transcode_start` take the buffer to recycle
from `v4l_rsd->buf.index` and never call `v4l_get_buf`.  In normal mode that is
the buffer `v4l_put_data` has de-queued, and the single-owner rule holds.
-/

set_option autoImplicit false

namespace ImxTest.Vpu.RecycleDisplay

open ImxTest.Lib.Run
open ImxTest.Vpu.Ownership
open ImxTest.Vpu.DisplayTurn
open ImxTest.Vpu.V4lDisplay
open ImxTest.Vpu.DisplayClient
open ImxTest.Vpu.DecoderDisplay

/-! ## The two loops -/

def loopbackSetRotatorOps (dec : Decode) (regs : Regs) : List Op :=
  if dec.mjpg then [.setRotatorOutput regs.rotid] else []

def loopbackNoPicture (dec : Decode) (regs : Regs) (indexFrameDisplay : Int) :
    List Op × Regs × Option Int :=
  (loopbackSetRotatorOps dec regs ++ clrOps true regs.dispClrIndex,
    { regs with dispClrIndex := indexFrameDisplay }, none)

def loopbackOnOutput (dec : Decode) (regs : Regs) : Output → List Op × Regs × Option Int
  | .index index =>
      let indexFrameDisplay : Int := if dec.mjpg ∧ index = 0 then regs.rotid else index
      (loopbackSetRotatorOps dec regs ++ [.output index],
        { regs with indexFrameDisplay := indexFrameDisplay }, some indexFrameDisplay)
  | .minus2 => loopbackNoPicture dec regs (-2)
  | .minus3 => loopbackNoPicture dec regs (-3)

def loopbackRecycle (dec : Decode) (regs : Regs) (index : Int) : List Op × Regs :=
  let ops := clrOps true regs.dispClrIndex
  if dec.mjpg then
    let rotid := (regs.rotid + 1).tmod dec.regfbcount
    (ops ++ [.rotid rotid], { regs with dispClrIndex := index, rotid := rotid })
  else (ops, { regs with dispClrIndex := index })

def loopbackDecode (dec : Decode) : Client Regs where
  start := ⟨-1, 0, 0⟩
  reports := reportsRegistered dec
  onOutput := loopbackOnOutput dec
  getBuf := false
  recycle := loopbackRecycle dec

def transcodeNoPicture (dec : Decode) (regs : Regs) (indexFrameDisplay : Int) :
    List Op × Regs × Option Int :=
  (setRotatorOps dec regs ++ clrOps (!dec.mjpg) regs.dispClrIndex,
    { regs with dispClrIndex := indexFrameDisplay }, none)

def transcodeOnOutput (dec : Decode) (regs : Regs) : Output → List Op × Regs × Option Int
  | .index index =>
      let indexFrameDisplay : Int := if dec.mjpg ∧ index = 0 then regs.rotid else index
      (setRotatorOps dec regs ++ [.output index],
        { regs with indexFrameDisplay := indexFrameDisplay },
        some (if rotates dec then regs.rotid else indexFrameDisplay))
  | .minus2 => transcodeNoPicture dec regs (-2)
  | .minus3 => transcodeNoPicture dec regs (-3)

def transcodeRecycle (dec : Decode) (regs : Regs) (index : Int) : List Op × Regs :=
  let ops := clrOps (!dec.mjpg) regs.dispClrIndex
  if dec.mjpg then
    let rotid := (regs.rotid + 1).tmod dec.regfbcount
    (ops ++ [.rotid rotid], { regs with rotid := rotid })
  else if dec.postProcessing then
    -- no way round: the fresh buffers are counted up
    let rotid := if index ≠ -1 then index else regs.rotid + 1
    (ops ++ [.rotid rotid],
      { regs with dispClrIndex := regs.indexFrameDisplay, rotid := rotid })
  else (ops, { regs with dispClrIndex := index })

def transcodeStart (dec : Decode) : Client Regs where
  start := startRegs dec
  reports := reportsRegistered dec
  onOutput := transcodeOnOutput dec
  getBuf := false
  recycle := transcodeRecycle dec

/-! ## Normal mode -/

section Loopback
variable {dec : Decode}

theorem loopbackDecode_direct (flags : dec.mjpg = false) : DirectClient (loopbackDecode dec) where
  start := by simp [loopbackDecode]
  reports := reports_unflagged flags
  picture regs index := by
    simp [loopbackDecode, loopbackOnOutput, loopbackSetRotatorOps, flags]
  noPicture regs output no := by
    have none : loopbackSetRotatorOps dec regs = [] := by simp [loopbackSetRotatorOps, flags]
    rcases List.mem_pair.mp no with rfl | rfl
    · exact ⟨rfl, rfl, .inr ⟨by rw [← none]; rfl, Int.negSucc_lt_zero 1⟩⟩
    · exact ⟨rfl, rfl, .inr ⟨by rw [← none]; rfl, Int.negSucc_lt_zero 2⟩⟩
  recycle regs index := by
    simp [loopbackDecode, loopbackRecycle, flags]

/-- The buffer that waits to be cleared is the turn before the window. -/
structure LoopTurning (dec : Decode) (model : Model Regs) : Prop where
  shows : Shows false model.window model.log
  cyclic : Cyclic dec.regfbcount (clrList model.regs.dispClrIndex) model.window model.regs.rotid
  short : model.window.length ≤ dec.kept

/-- With one buffer more than the window and the target, the waiting one is none
of these. -/
theorem LoopTurning.shows_clrList {model : Model Regs} (turning : LoopTurning dec model)
    (room : dec.kept + 2 ≤ dec.regfbcount) {window : List Int} {log : List Op}
    (shows : Shows false window log)
    (within : ∀ index ∈ window, index ∈ model.window ++ [model.regs.rotid]) :
    Shows false window (log ++ (clrList model.regs.dispClrIndex).map Op.clrDispFlag) := by
  have nodup := turning.cyclic.nodup (by
    have := turning.short
    have := clrList_length model.regs.dispClrIndex
    omega)
  unfold clrList at nodup ⊢
  split
  · rename_i waits
    rw [if_pos waits, List.append_assoc, List.singleton_append] at nodup
    refine shows.clrDispFlag ?_ (by simp)
    intro mem
    exact (List.nodup_cons.mp nodup).1 (within _ mem)
  · simpa using shows

theorem loopbackDecode_turning (mjpg : dec.mjpg = true) (room : dec.kept + 2 ≤ dec.regfbcount)
    {model : Model Regs}
    (reaches : ModelReaches dec ((loopbackDecode dec).only (· = 0)) model) :
    LoopTurning dec model := by
  refine reaches.induct (LoopTurning dec) ?_ ?_ ?_
  · exact ⟨shows_nil false, cyclic_nil dec.regfbcount, Nat.zero_le _⟩
  · intro model output turning allowed shown
    have short := turning.short
    have targeted := turning.shows.setRotatorOutput (turning.cyclic.fresh (by omega))
    have noPicture : ∀ indexFrameDisplay < 0, LoopTurning dec
        ⟨model.window, (loopbackNoPicture dec model.regs indexFrameDisplay).2.1,
          model.log ++ (loopbackNoPicture dec model.regs indexFrameDisplay).1⟩ := by
      intro indexFrameDisplay negative
      simp only [loopbackNoPicture, loopbackSetRotatorOps, if_pos mjpg, clrOps_true,
        ← List.append_assoc]
      refine ⟨turning.shows_clrList room targeted ?_, ?_, short⟩
      · intro index mem
        exact List.mem_append_left _ mem
      · simp only [clrList_of_neg negative]
        exact turning.cyclic.forget
    cases output with
    | index index => cases shown
    | minus2 => exact noPicture (-2) (by decide)
    | minus3 => exact noPicture (-3) (by decide)
  · intro model output shown turning allowed some
    have short := turning.short
    have targeted := turning.shows.setRotatorOutput (turning.cyclic.fresh (by omega))
    cases output with
    | index index =>
        obtain rfl : index = 0 := by
          simpa using (Bool.and_eq_true_iff.mp allowed).2
        have turn : loopbackOnOutput dec model.regs (.index 0) =
            ([.setRotatorOutput model.regs.rotid] ++ [.output 0],
              { model.regs with indexFrameDisplay := model.regs.rotid },
              Option.some model.regs.rotid) := by
          simp [loopbackOnOutput, loopbackSetRotatorOps, mjpg]
        simp only [Client.only, loopbackDecode, turn, Option.some.injEq] at some
        subst some
        have back := windowPut_append dec.kept model.window model.regs.rotid
        have length := windowPut_length dec.kept model.window model.regs.rotid short
        have put := (targeted.output 0).put dec.kept (turning.cyclic.fresh (by omega))
        have next := turning.cyclic.put dec.kept
        have cleared := turning.shows_clrList room put fun index mem => by
          rw [← back]
          exact List.mem_append_right _ mem
        simp only [Model.showed, Client.only, loopbackDecode, turn, loopbackRecycle, if_pos mjpg,
          clrOps_true, ← List.append_assoc]
        refine ⟨cleared.rotid (next.fresh (by omega)), ?_, length⟩
        simp only
        rcases clrList_getD_eq (windowPut dec.kept model.window model.regs.rotid).2 with
          same | none
        · rw [same]
          exact next.drop
        · rw [none]
          exact next.forget
    | minus2 => cases some
    | minus3 => cases some

end Loopback

section Transcode
variable {dec : Decode}

theorem transcodeNoPicture_passes (flags : dec.mjpg = false) (regs : Regs)
    (indexFrameDisplay : Int) (negative : indexFrameDisplay < 0) :
    Passes (setRotatorOps dec regs) regs (transcodeNoPicture dec regs indexFrameDisplay) := by
  exact ⟨rfl, rfl, .inr ⟨by rw [transcodeNoPicture, flags]; rfl, negative⟩⟩

theorem transcodeStart_direct (plain : dec.postProcessing = false) (flags : dec.mjpg = false) :
    DirectClient (transcodeStart dec) where
  start := by simp [transcodeStart, startRegs]
  reports := reports_unflagged flags
  picture regs index := by
    simp [transcodeStart, transcodeOnOutput, setRotatorOps, rotates, plain, flags]
  noPicture regs output no := by
    have none : setRotatorOps dec regs = [] := by simp [setRotatorOps, rotates, plain, flags]
    rw [← none]
    rcases List.mem_pair.mp no with rfl | rfl
    · exact transcodeNoPicture_passes flags regs (-2) (by decide)
    · exact transcodeNoPicture_passes flags regs (-3) (by decide)
  recycle regs index := by
    simp [transcodeStart, transcodeRecycle, plain, flags]

theorem transcodeStart_rotating (rotated : dec.postProcessing = true) (flags : dec.mjpg = false) :
    RotatingClient dec (transcodeStart dec) where
  start := by simp [transcodeStart, startRegs, rotated, flags]
  reports log index reports := ((reports_iff dec log index).mp reports).1
  picture regs index := by
    refine ⟨{ regs with indexFrameDisplay := index }, .inl ⟨?_, rfl, rfl, rfl⟩⟩
    simp [transcodeStart, transcodeOnOutput, setRotatorOps, rotates, rotated, flags]
  noPicture regs output no := by
    have one : setRotatorOps dec regs = [.setRotatorOutput regs.rotid] := by
      simp [setRotatorOps, rotates, rotated]
    rw [← one]
    rcases List.mem_pair.mp no with rfl | rfl
    · exact transcodeNoPicture_passes flags regs (-2) (by decide)
    · exact transcodeNoPicture_passes flags regs (-3) (by decide)
  recycle regs window ring := by
    simpa [transcodeStart, transcodeRecycle, rotated, flags] using ring.back_eq (regs.rotid + 1)

theorem transcodeStart_turning (mjpg : dec.mjpg = true) :
    TurningClient dec (transcodeStart dec) where
  start := by simp [transcodeStart, startRegs, mjpg]
  picture regs index := by
    simp [transcodeStart, transcodeOnOutput, setRotatorOps, rotates, mjpg]
  noPicture regs output no := by
    rcases List.mem_pair.mp no with rfl | rfl
    all_goals
      simp [transcodeStart, transcodeOnOutput, transcodeNoPicture, setRotatorOps, rotates, mjpg]
  recycle regs index := by
    simp [transcodeStart, transcodeRecycle, mjpg]

end Transcode

/-- A motion JPEG picture is the one that `decode` replaces by `rotid`. -/
def JpegPicture (dec : Decode) : Act → Prop
  | .output (.index index) => dec.mjpg = true → index = 0
  | _ => True

theorem loopbackDecode_owned {dec : Decode} (normal : dec.performance = false)
    (kept : 1 ≤ dec.kept) (spare : dec.mjpg = true → 2 ≤ dec.minfbcount) (list : Nat → Int)
    (bufIndex : Int) (acts : List Act) (pictures : ∀ act ∈ acts, JpegPicture dec act)
    (sys : Sys Regs)
    (run : runEvents (sysStep dec (loopbackDecode dec)) acts
      (.start dec (loopbackDecode dec) list bufIndex) = some sys) :
    Owned false sys.log := by
  have noThread : ∀ client : Client Regs, dec.performance = true → client.getBuf = true := by
    intro client performance
    rw [normal] at performance
    cases performance
  cases mjpg : dec.mjpg with
  | true =>
      have room : dec.kept + 2 ≤ dec.regfbcount := by
        have := spare mjpg
        unfold Decode.kept at kept ⊢
        omega
      have zero : ∀ index, Act.output (.index index) ∈ acts → decide (index = 0) = true := by
        intro index mem
        exact decide_eq_true (pictures _ mem mjpg)
      rw [run_only dec _ (· = 0) acts _ zero] at run
      refine owned_of_model (noThread _) false ?_ list bufIndex acts sys run
      intro model reaches
      exact (loopbackDecode_turning mjpg room reaches).shows.owned
  | false =>
      refine owned_of_model (noThread _) false ?_ list bufIndex acts sys run
      intro model reaches
      exact ((loopbackDecode_direct mjpg).direct false reaches).shows.owned

theorem transcodeStart_owned {dec : Decode} (normal : dec.performance = false)
    (kept : 1 ≤ dec.kept) (spare : dec.mjpg = true → 1 ≤ dec.minfbcount) (list : Nat → Int)
    (bufIndex : Int) (acts : List Act) (sys : Sys Regs)
    (run : runEvents (sysStep dec (transcodeStart dec)) acts
      (.start dec (transcodeStart dec) list bufIndex) = some sys) :
    Owned false sys.log := by
  have noThread : dec.performance = true → (transcodeStart dec).getBuf = true := by
    intro performance
    rw [normal] at performance
    cases performance
  refine owned_of_model noThread false ?_ list bufIndex acts sys run
  intro model reaches
  cases mjpg : dec.mjpg with
  | true =>
      have room : dec.kept + 1 ≤ dec.regfbcount := by
        have := spare mjpg
        unfold Decode.kept at kept ⊢
        omega
      exact ((transcodeStart_turning mjpg).turning room reaches).shows.owned
  | false =>
      cases rotated : dec.postProcessing with
      | true => exact ((transcodeStart_rotating rotated mjpg).rotating reaches).shows.owned
      | false => exact ((transcodeStart_direct rotated mjpg).direct false reaches).shows.owned

end ImxTest.Vpu.RecycleDisplay
