import ImxTest.Vpu.DisplayTurn
import ImxTest.Vpu.V4lDisplay

/-!
# Decoding loops by the way they take turns

The loops around the display share their variables and differ in details.  For
each way of taking turns this says what a loop must do, and that every run of the
window model then follows the single-owner rule.
-/

set_option autoImplicit false

namespace ImxTest.Vpu.DisplayClient

open ImxTest.Vpu.Ownership
open ImxTest.Vpu.DisplayTurn
open ImxTest.Vpu.V4lDisplay

/-- The variables of a loop that decide about buffers. -/
structure Regs where
  dispClrIndex : Int
  rotid : Int
  indexFrameDisplay : Int
  deriving DecidableEq, Repr

/-- `vpu_DecClrDispFlag` on `disp_clr_index`, where the loop clears flags. -/
def clrOps (clears : Bool) (dispClrIndex : Int) : List Op :=
  if clears then (clrList dispClrIndex).map Op.clrDispFlag else []

/-- The VPU reports registered buffers whose display flag is clear.  For motion
JPEG nothing is asked of the flag. -/
def reportsRegistered (dec : Decode) (log : List Op) (index : Nat) : Bool :=
  index < dec.regfbcount && (dec.mjpg || !(flagged log).contains (index : Int))

theorem reports_iff (dec : Decode) (log : List Op) (index : Nat) :
    reportsRegistered dec log index = true ↔
      index < dec.regfbcount ∧ (dec.mjpg = true ∨ (index : Int) ∉ flagged log) := by
  simp [reportsRegistered]

theorem reports_unflagged {dec : Decode} (flags : dec.mjpg = false) (log : List Op) (index : Nat)
    (reports : reportsRegistered dec log index = true) : (index : Int) ∉ flagged log := by
  obtain ⟨_, mjpg | unflagged⟩ := (reports_iff dec log index).mp reports
  · rw [flags] at mjpg
    cases mjpg
  · exact unflagged

@[simp]
theorem clrOps_true (dispClrIndex : Int) :
    clrOps true dispClrIndex = (clrList dispClrIndex).map Op.clrDispFlag := rfl

@[simp]
theorem clrOps_false (dispClrIndex : Int) : clrOps false dispClrIndex = [] := rfl

/-! ## One turn -/

section Direct
variable {once : Bool} {window : List Int} {clr : Int} {log : List Op}

/-- A picture of the VPU is shown, the waiting buffer cleared, and what came back
waits. -/
theorem direct_turn {index : Int} (kept : Nat)
    (direct : Direct once (clrList clr) window log) (unflagged : index ∉ flagged log) :
    Direct once (clrList ((windowPut kept window index).2.getD (-1)))
      (windowPut kept window index).1
      (log ++ [.output index] ++ putOps kept window index ++
        (clrList clr).map Op.clrDispFlag) :=
  (direct.put kept unflagged).clrList.sublist (clrList_getD_sublist _)

theorem direct_noPicture {indexFrameDisplay : Int} (negative : indexFrameDisplay < 0)
    (direct : Direct once (clrList clr) window log) :
    Direct once (clrList indexFrameDisplay) window
      (log ++ (clrList clr).map Op.clrDispFlag) := by
  rw [clrList_of_neg negative]
  rw [← List.append_nil (clrList clr)] at direct
  exact direct.clrList

end Direct

section Turns
variable {window : List Int} {log : List Op}

/-- A registered buffer is cleared: the window is behind those. -/
theorem shows_clrList {regfbcount kept : Nat} {rotid clr : Int} (shows : Shows false window log)
    (ring : Ring regfbcount kept window rotid) (registered : clr < regfbcount) :
    Shows false window (log ++ (clrList clr).map Op.clrDispFlag) := by
  unfold clrList
  split
  · refine shows.clrDispFlag ?_ (by simp)
    intro mem
    have := ring.behind clr (List.mem_append_left _ mem)
    omega
  · simpa using shows

theorem shows_rotating {regfbcount kept : Nat} {rotid clr : Int} (shows : Shows false window log)
    (ring : Ring regfbcount kept window rotid) (registered : clr < regfbcount) :
    Shows false (windowPut kept window rotid).1
      (log ++ putOps kept window rotid ++ (clrList clr).map Op.clrDispFlag ++
        [.rotid ((windowPut kept window rotid).2.getD (rotid + 1))]) :=
  (shows_clrList (shows.put kept ring.fresh) ring.put registered).rotid ring.put.fresh

theorem shows_turning {count kept : Nat} {spare : List Int} {rotid : Int}
    (shows : Shows false window log) (cyclic : Cyclic count spare window rotid)
    (short : window.length ≤ kept) (room : kept + 1 ≤ count) :
    Shows false (windowPut kept window rotid).1
      (log ++ putOps kept window rotid ++ [.rotid ((rotid + 1).tmod count)]) := by
  have length := windowPut_length kept window rotid short
  exact (shows.put kept (cyclic.fresh (by omega))).rotid ((cyclic.put kept).fresh (by omega))

end Turns

/-- A turn without a picture: nothing is shown, and the buffer that waits to be
cleared goes on waiting or is cleared. -/
structure Passes (before : List Op) (regs : Regs) (turn : List Op × Regs × Option Int) :
    Prop where
  shown : turn.2.2 = none
  rotid : turn.2.1.rotid = regs.rotid
  clr : (turn.1 = before ∧ turn.2.1.dispClrIndex = regs.dispClrIndex) ∨
    (turn.1 = before ++ (clrList regs.dispClrIndex).map Op.clrDispFlag ∧
      turn.2.1.dispClrIndex < 0)

/-! ## Loops that show the buffers of the VPU -/

structure DirectClient (client : Client Regs) : Prop where
  start : client.start.dispClrIndex < 0
  reports : ∀ log index, client.reports log index = true → (index : Int) ∉ flagged log
  picture : ∀ regs index, ∃ regs',
    client.onOutput regs (.index index) = ([.output index], regs', some (index : Int)) ∧
      regs'.dispClrIndex = regs.dispClrIndex
  noPicture : ∀ regs, ∀ output ∈ [Output.minus2, Output.minus3],
    Passes [] regs (client.onOutput regs output)
  recycle : ∀ regs index, ∃ regs',
    client.recycle regs index = ((clrList regs.dispClrIndex).map Op.clrDispFlag, regs') ∧
      regs'.dispClrIndex = index

theorem DirectClient.direct {dec : Decode} {client : Client Regs} {model : Model Regs}
    (loop : DirectClient client) (once : Bool) (reaches : ModelReaches dec client model) :
    Direct once (clrList model.regs.dispClrIndex) model.window model.log := by
  refine reaches.induct (fun model =>
    Direct once (clrList model.regs.dispClrIndex) model.window model.log) ?_ ?_ ?_
  · simp only [Model.start, clrList_of_neg loop.start]
    exact direct_nil once
  · intro model output direct allowed shown
    have noPicture : ∀ output ∈ [Output.minus2, Output.minus3],
        Direct once (clrList (model.passed client output).regs.dispClrIndex)
          (model.passed client output).window (model.passed client output).log := by
      intro output no
      simp only [Model.passed]
      rcases (loop.noPicture model.regs output no).clr with ⟨ops, same⟩ | ⟨ops, negative⟩
      · rw [ops, same, List.append_nil]
        exact direct
      · rw [ops]
        exact direct_noPicture negative direct
    cases output with
    | index index =>
        obtain ⟨regs', turn, _⟩ := loop.picture model.regs index
        rw [turn] at shown
        cases shown
    | minus2 => exact noPicture .minus2 (by simp)
    | minus3 => exact noPicture .minus3 (by simp)
  · intro model output shown direct allowed some
    cases output with
    | index index =>
        obtain ⟨regs', turn, same⟩ := loop.picture model.regs index
        rw [turn] at some
        obtain rfl := Option.some.inj some
        obtain ⟨regs'', recycle, waits⟩ := loop.recycle regs'
          ((windowPut dec.kept model.window index).2.getD (-1))
        simp only [Model.showed, turn, recycle, waits, same]
        exact direct_turn dec.kept direct (loop.reports model.log index allowed)
    | minus2 =>
        rw [(loop.noPicture model.regs .minus2 (by simp)).shown] at some
        cases some
    | minus3 =>
        rw [(loop.noPicture model.regs .minus3 (by simp)).shown] at some
        cases some

/-! ## Loops with buffers behind the registered ones -/

/-- The window holds buffers behind the registered ones, `disp_clr_index` one of
those. -/
structure Rotating (dec : Decode) (model : Model Regs) : Prop where
  shows : Shows false model.window model.log
  ring : Ring dec.regfbcount dec.kept model.window model.regs.rotid
  registered : model.regs.dispClrIndex < dec.regfbcount

structure RotatingClient (dec : Decode) (client : Client Regs) : Prop where
  start : client.start.dispClrIndex < 0 ∧ client.start.rotid = dec.regfbcount
  reports : ∀ log index, client.reports log index = true → index < dec.regfbcount
  /-- The picture is shown, or it waits for the next one. -/
  picture : ∀ regs index, ∃ regs',
    (client.onOutput regs (.index index) =
        ([.setRotatorOutput regs.rotid] ++ [.output index], regs', some regs.rotid) ∧
      regs'.rotid = regs.rotid ∧ regs'.dispClrIndex = regs.dispClrIndex ∧
      regs'.indexFrameDisplay = index) ∨
    (client.onOutput regs (.index index) =
        ([.setRotatorOutput regs.rotid] ++ [.output index], regs', none) ∧
      regs'.rotid = regs.rotid ∧ regs'.dispClrIndex = index)
  noPicture : ∀ regs, ∀ output ∈ [Output.minus2, Output.minus3],
    Passes [.setRotatorOutput regs.rotid] regs (client.onOutput regs output)
  recycle : ∀ regs window, Ring dec.regfbcount dec.kept window regs.rotid →
    ∃ regs', client.recycle regs ((windowPut dec.kept window regs.rotid).2.getD (-1)) =
        ((clrList regs.dispClrIndex).map Op.clrDispFlag ++ [.rotid regs'.rotid], regs') ∧
      regs'.rotid = (windowPut dec.kept window regs.rotid).2.getD (regs.rotid + 1) ∧
      regs'.dispClrIndex = regs.indexFrameDisplay

theorem RotatingClient.turn {dec : Decode} {client : Client Regs}
    (loop : RotatingClient dec client) (regs : Regs) (output : Output) :
    (client.onOutput regs output).2.1.rotid = regs.rotid ∧
      ((client.onOutput regs output).2.2 = none ∨
        (client.onOutput regs output).2.2 = some regs.rotid) := by
  cases output with
  | index index =>
      obtain ⟨regs', ⟨turn, same, _⟩ | ⟨turn, same, _⟩⟩ := loop.picture regs index
      · rw [turn]
        exact ⟨same, .inr rfl⟩
      · rw [turn]
        exact ⟨same, .inl rfl⟩
  | minus2 =>
      have passes := loop.noPicture regs .minus2 (by simp)
      exact ⟨passes.rotid, .inl passes.shown⟩
  | minus3 =>
      have passes := loop.noPicture regs .minus3 (by simp)
      exact ⟨passes.rotid, .inl passes.shown⟩

theorem RotatingClient.rotating {dec : Decode} {client : Client Regs} {model : Model Regs}
    (loop : RotatingClient dec client) (reaches : ModelReaches dec client model) :
    Rotating dec model := by
  refine reaches.induct (Rotating dec) ?_ ?_ ?_
  · obtain ⟨negative, first⟩ := loop.start
    refine ⟨shows_nil false, ?_, ?_⟩
    · simp only [Model.start, first]
      exact ring_nil dec.regfbcount dec.kept
    · simp only [Model.start]
      omega
  · intro model output rotating allowed shown
    have targeted := rotating.shows.setRotatorOutput rotating.ring.fresh
    have noPicture : ∀ output ∈ [Output.minus2, Output.minus3],
        Rotating dec (model.passed client output) := by
      intro output no
      have passes := loop.noPicture model.regs output no
      have ring : Ring dec.regfbcount dec.kept model.window
          (model.passed client output).regs.rotid := by
        simp only [Model.passed, passes.rotid]
        exact rotating.ring
      rcases passes.clr with ⟨ops, same⟩ | ⟨ops, negative⟩
      · refine ⟨?_, ring, ?_⟩
        · simp only [Model.passed, ops]
          exact targeted
        · simp only [Model.passed, same]
          exact rotating.registered
      · refine ⟨?_, ring, ?_⟩
        · simp only [Model.passed, ops, ← List.append_assoc]
          exact shows_clrList targeted rotating.ring rotating.registered
        · simp only [Model.passed]
          omega
    cases output with
    | index index =>
        obtain ⟨regs', ⟨turn, _⟩ | ⟨turn, same, waits⟩⟩ := loop.picture model.regs index
        · rw [turn] at shown
          cases shown
        · refine ⟨?_, ?_, ?_⟩
          · simp only [Model.passed, turn, ← List.append_assoc]
            exact targeted.output index
          · simp only [Model.passed, turn, same]
            exact rotating.ring
          · simp only [Model.passed, turn, waits]
            exact_mod_cast loop.reports model.log index allowed
    | minus2 => exact noPicture .minus2 (by simp)
    | minus3 => exact noPicture .minus3 (by simp)
  · intro model output shown rotating allowed some
    have targeted := rotating.shows.setRotatorOutput rotating.ring.fresh
    cases output with
    | index index =>
        obtain ⟨regs', ⟨turn, target, same, now⟩ | ⟨turn, _⟩⟩ := loop.picture model.regs index
        · rw [turn] at some
          obtain rfl := Option.some.inj some
          obtain ⟨regs'', recycle, next, waits⟩ := loop.recycle regs' model.window
            (by rw [target]; exact rotating.ring)
          rw [target] at recycle next
          refine ⟨?_, ?_, ?_⟩
          · simp only [Model.showed, turn, recycle, next, same, ← List.append_assoc]
            exact shows_rotating (targeted.output index) rotating.ring rotating.registered
          · simp only [Model.showed, turn, recycle, next]
            exact rotating.ring.put
          · simp only [Model.showed, turn, recycle, waits, now]
            exact_mod_cast loop.reports model.log index allowed
        · rw [turn] at some
          cases some
    | minus2 =>
        rw [(loop.noPicture model.regs .minus2 (by simp)).shown] at some
        cases some
    | minus3 =>
        rw [(loop.noPicture model.regs .minus3 (by simp)).shown] at some
        cases some

/-! ## Loops over all the registered buffers -/

/-- The window holds the last turns. -/
structure Turning (dec : Decode) (model : Model Regs) : Prop where
  shows : Shows false model.window model.log
  cyclic : Cyclic dec.regfbcount [] model.window model.regs.rotid
  short : model.window.length ≤ dec.kept

structure TurningClient (dec : Decode) (client : Client Regs) : Prop where
  start : client.start.rotid = 0
  picture : ∀ regs index, ∃ regs',
    client.onOutput regs (.index index) =
        ([.setRotatorOutput regs.rotid] ++ [.output index], regs', some regs.rotid) ∧
      regs'.rotid = regs.rotid
  noPicture : ∀ regs, ∀ output ∈ [Output.minus2, Output.minus3], ∃ regs',
    client.onOutput regs output = ([.setRotatorOutput regs.rotid], regs', none) ∧
      regs'.rotid = regs.rotid
  recycle : ∀ regs index, ∃ regs',
    client.recycle regs index = ([.rotid regs'.rotid], regs') ∧
      regs'.rotid = (regs.rotid + 1).tmod dec.regfbcount

theorem TurningClient.turning {dec : Decode} {client : Client Regs} {model : Model Regs}
    (loop : TurningClient dec client) (room : dec.kept + 1 ≤ dec.regfbcount)
    (reaches : ModelReaches dec client model) : Turning dec model := by
  refine reaches.induct (Turning dec) ?_ ?_ ?_
  · refine ⟨shows_nil false, ?_, Nat.zero_le _⟩
    simp only [Model.start, loop.start]
    exact cyclic_nil dec.regfbcount
  · intro model output turning allowed shown
    have short := turning.short
    have targeted := turning.shows.setRotatorOutput (turning.cyclic.fresh (by omega))
    have noPicture : ∀ output ∈ [Output.minus2, Output.minus3],
        Turning dec (model.passed client output) := by
      intro output no
      obtain ⟨regs', turn, same⟩ := loop.noPicture model.regs output no
      simp only [Model.passed, turn]
      exact ⟨targeted, by simpa only [same] using turning.cyclic, short⟩
    cases output with
    | index index =>
        obtain ⟨regs', turn, _⟩ := loop.picture model.regs index
        rw [turn] at shown
        cases shown
    | minus2 => exact noPicture .minus2 (by simp)
    | minus3 => exact noPicture .minus3 (by simp)
  · intro model output shown turning allowed some
    have short := turning.short
    have targeted := turning.shows.setRotatorOutput (turning.cyclic.fresh (by omega))
    have noPicture : ∀ output ∈ [Output.minus2, Output.minus3],
        (client.onOutput model.regs output).2.2 ≠ Option.some shown := by
      intro output no
      obtain ⟨regs', turn, _⟩ := loop.noPicture model.regs output no
      simp [turn]
    cases output with
    | index index =>
        obtain ⟨regs', turn, same⟩ := loop.picture model.regs index
        rw [turn] at some
        obtain rfl := Option.some.inj some
        obtain ⟨regs'', recycle, next⟩ := loop.recycle regs'
          ((windowPut dec.kept model.window model.regs.rotid).2.getD (-1))
        rw [same] at next
        simp only [Model.showed, turn, recycle, ← List.append_assoc]
        refine ⟨?_, ?_, windowPut_length dec.kept model.window model.regs.rotid short⟩
        · rw [next]
          exact shows_turning (targeted.output index) turning.cyclic short room
        · simp only [next]
          exact (turning.cyclic.put dec.kept).forget
    | minus2 => exact absurd some (noPicture .minus2 (by simp))
    | minus3 => exact absurd some (noPicture .minus3 (by simp))

end ImxTest.Vpu.DisplayClient
