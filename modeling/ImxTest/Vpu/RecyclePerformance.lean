import ImxTest.Vpu.RecycleDisplay

/-!
# Loopback and transcoding in performance mode

In performance mode `v4l_rsd->buf.index` is the buffer just queued, not one that
came back, and the display thread need not have run: the buffers pile up in the
driver and the turns can be counted.  In every such configuration a run breaks the
single-owner rule, so that normal mode is exactly where it holds.
-/

set_option autoImplicit false

namespace ImxTest.Vpu.RecyclePerformance

open ImxTest.Lib.Run
open ImxTest.Vpu.Ownership
open ImxTest.Vpu.DisplayTurn
open ImxTest.Vpu.V4lDisplay
open ImxTest.Vpu.DisplayClient
open ImxTest.Vpu.DecoderDisplay
open ImxTest.Vpu.RecycleDisplay

/-! ## Turns without the thread -/


section Turns
variable (dec : Decode) (client : Client Regs) (allowed : Act → Prop)

def turnRegs (client : Client Regs) (regs : Regs) (picture : Nat) (back : Int) : Regs :=
  (client.recycle (client.onOutput regs (.index picture)).2.1 back).2

def turnOps (client : Client Regs) (regs : Regs) (picture : Nat) (index back : Int) : List Op :=
  (client.onOutput regs (.index picture)).1 ++ [.qbuf index] ++
    (client.recycle (client.onOutput regs (.index picture)).2.1 back).1

structure Turned (client : Client Regs) (sys sys' : Sys Regs) (picture : Nat) (index back : Int) :
    Prop where
  pc : sys'.pc = .decode
  queuedCount : sys'.display.queuedCount = sys.display.queuedCount + 1
  driver : sys'.display.driver = sys.display.driver ++ [index]
  regs : sys'.regs = turnRegs client sys.regs picture back
  log : sys'.log = sys.log ++ turnOps client sys.regs picture index back

/-- With room in the window, or in performance mode, a turn de-queues nothing. -/
theorem leads_turn (noGet : client.getBuf = false) (moves : allowed .decoder) {sys : Sys Regs}
    {picture : Nat} {index : Int} (pc : sys.pc = .decode)
    (may : allowed (.output (.index picture)))
    (reports : client.reports sys.log picture = true)
    (shown : (client.onOutput sys.regs (.index picture)).2.2 = some index)
    (keeps : sys.display.queuedCount + 1 ≤ dec.kept ∨ dec.performance = true) :
    ∃ sys', Leads (sysStep dec client) allowed sys sys' ∧
      Turned client sys sys' picture index
        (if sys.display.queuedCount + 1 > dec.kept then index else -1) := by
  have acts : ∀ act ∈ Act.output (.index picture) :: List.replicate 3 Act.decoder,
      allowed act := by
    intro act mem
    rcases List.mem_cons.mp mem with rfl | mem
    · exact may
    · rw [List.eq_of_mem_replicate mem]
      exact moves
  have enabled : sys.pc = .decode ∧ client.allows sys.log (.index picture) = true :=
    ⟨pc, reports⟩
  by_cases beyond : sys.display.queuedCount + 1 > dec.kept
  · have performance : dec.performance = true := keeps.resolve_left (by omega)
    rw [if_pos beyond]
    refine ⟨⟨{ sys.display with
        driver := sys.display.driver ++ [index]
        bufIndex := index
        queuedCount := sys.display.queuedCount + 1
        avaiableDequeueFrame := sys.display.avaiableDequeueFrame + 1 }, .decode, sys.thread,
      turnRegs client sys.regs picture index,
      sys.log ++ turnOps client sys.regs picture index index⟩, ⟨_, acts, ?_⟩,
      rfl, rfl, rfl, rfl, rfl⟩
    simp [runEvents, sysStep, outputStep, enabled, shown, decoderStep, afterPut, noGet, beyond,
      performance, List.replicate, turnRegs, turnOps]
  · rw [if_neg beyond]
    refine ⟨⟨{ sys.display with
        driver := sys.display.driver ++ [index]
        bufIndex := -1
        queuedCount := sys.display.queuedCount + 1 }, .decode, sys.thread,
      turnRegs client sys.regs picture (-1),
      sys.log ++ turnOps client sys.regs picture index (-1)⟩, ⟨_, acts, ?_⟩,
      rfl, rfl, rfl, rfl, rfl⟩
    simp [runEvents, sysStep, outputStep, enabled, shown, decoderStep, afterPut, noGet, beyond,
      List.replicate, turnRegs, turnOps]

/-- In normal mode a turn with a full window de-queues the oldest buffer. -/
theorem leads_dequeue (normal : dec.performance = false) (moves : allowed .decoder)
    {sys : Sys Regs} {picture : Nat} {index oldest : Int} {rest : List Int}
    (pc : sys.pc = .decode) (may : allowed (.output (.index picture)))
    (reports : client.reports sys.log picture = true)
    (shown : (client.onOutput sys.regs (.index picture)).2.2 = some index)
    (full : sys.display.queuedCount = dec.kept)
    (both : sys.display.driver ++ [index] = oldest :: rest) :
    ∃ sys', Leads (sysStep dec client) allowed sys sys' ∧ sys'.pc = .decode ∧
      sys'.display.queuedCount = dec.kept ∧ sys'.display.driver = rest ∧
      sys'.regs = turnRegs client sys.regs picture oldest ∧
      sys'.log = sys.log ++ (client.onOutput sys.regs (.index picture)).1 ++
        [.qbuf index, .dqbuf oldest] ++
        (client.recycle (client.onOutput sys.regs (.index picture)).2.1 oldest).1 := by
  have acts : ∀ act ∈ Act.output (.index picture) :: List.replicate 4 Act.decoder,
      allowed act := by
    intro act mem
    rcases List.mem_cons.mp mem with rfl | mem
    · exact may
    · rw [List.eq_of_mem_replicate mem]
      exact moves
  have enabled : sys.pc = .decode ∧ client.allows sys.log (.index picture) = true :=
    ⟨pc, reports⟩
  refine ⟨⟨{ sys.display with driver := rest, bufIndex := oldest }, .decode, sys.thread,
    turnRegs client sys.regs picture oldest, _⟩, ⟨_, acts, ?_⟩, rfl, full, rfl, rfl, rfl⟩
  simp [runEvents, sysStep, outputStep, enabled, shown, decoderStep, afterPut, normal, full, both,
    List.replicate, turnRegs]

theorem leads_turns (noGet : client.getBuf = false) (moves : allowed .decoder)
    (Plan : Nat → Regs → List Op → Prop) (target : Nat → Int) (count : Nat)
    (keeps : count ≤ dec.kept ∨ dec.performance = true) (start : Plan 0 client.start [])
    (turn : ∀ turn < count, ∀ regs log, Plan turn regs log → ∃ picture,
      allowed (.output (.index picture)) ∧ client.reports log picture = true ∧
      (client.onOutput regs (.index picture)).2.2 = some (target turn) ∧
      ∀ back, (turn < dec.kept → back = -1) →
        Plan (turn + 1) (turnRegs client regs picture back)
          (log ++ turnOps client regs picture (target turn) back))
    (list : Nat → Int) (bufIndex : Int) :
    ∃ sys, Leads (sysStep dec client) allowed (.start dec client list bufIndex) sys ∧
      sys.pc = .decode ∧ sys.display.queuedCount = count ∧
      sys.display.driver = (List.range count).map target ∧ Plan count sys.regs sys.log := by
  induction count with
  | zero => exact ⟨_, .refl _, rfl, rfl, rfl, start⟩
  | succ count ih =>
      obtain ⟨sys, leads, pc, queuedCount, driver, plan⟩ :=
        ih (keeps.imp_left (by omega)) fun before less => turn before (by omega)
      obtain ⟨picture, may, reports, shown, next⟩ := turn count (by omega) sys.regs sys.log plan
      obtain ⟨sys', more, turned⟩ := leads_turn dec client allowed noGet moves pc may reports shown
        (keeps.imp_left (by omega))
      refine ⟨sys', leads.trans more, turned.pc, ?_, ?_, ?_⟩
      · rw [turned.queuedCount, queuedCount]
        rfl
      · rw [turned.driver, driver, List.range_succ, List.map_append]
        rfl
      · rw [turned.regs, turned.log]
        refine next _ fun room => if_neg ?_
        omega

end Turns

def buffers (first : Int) (count : Nat) : List Int :=
  (List.range count).map fun (index : Nat) => first + index

theorem buffers_succ (first : Int) (count : Nat) :
    buffers first (count + 1) = buffers first count ++ [first + count] := by
  simp [buffers, List.range_succ]

theorem buffers_cons (first : Int) (count : Nat) :
    buffers first (count + 1) = first :: buffers (first + 1) count := by
  simp only [buffers, List.range_succ_eq_map, List.map_cons, List.map_map]
  congr 1
  · simp
  · apply List.map_congr_left
    intro index _
    simp only [Function.comp]
    omega

theorem mem_buffers (first : Int) {count index : Nat} (less : index < count) :
    first + index ∈ buffers first count :=
  List.mem_map.mpr ⟨index, List.mem_range.mpr less, rfl⟩

/-- The buffers from 0 on are in the driver, one for each turn so far. -/
structure Counting (dec : Decode) (turn : Nat) (regs : Regs) (log : List Op) : Prop where
  clr : regs.dispClrIndex = -1
  rotid : dec.mjpg = true → regs.rotid = turn
  queued : queued log = buffers 0 turn
  flagged : dec.mjpg = false → ∀ index ∈ flagged log, index < turn

/-- A loop that shows the buffers from 0 on, and then clears what it got back. -/
structure CountingClient (dec : Decode) (client : Client Regs) (allowed : Act → Prop) :
    Prop where
  getBuf : client.getBuf = false
  may : allowed .decoder ∧ allowed (.output .minus2)
  start : client.start.dispClrIndex = -1 ∧ client.start.rotid = 0
  turn : ∀ turn regs log, Counting dec turn regs log → turn < dec.regfbcount → ∃ picture,
    allowed (.output (.index picture)) ∧ client.reports log picture = true ∧
    (client.onOutput regs (.index picture)).2.2 = some (turn : Int) ∧
    ∀ back, (turnRegs client regs picture back).dispClrIndex = back ∧
      (dec.mjpg = true →
        (turnRegs client regs picture back).rotid = ((turn : Int) + 1).tmod dec.regfbcount) ∧
      queued (log ++ turnOps client regs picture turn back) = buffers 0 (turn + 1) ∧
      (dec.mjpg = false → ∀ index ∈ flagged (log ++ turnOps client regs picture turn back),
        index < (turn : Int) + 1)
  noPicture : ∀ regs, 0 ≤ regs.dispClrIndex → ∃ ops regs',
    client.onOutput regs .minus2 = (ops ++ [.clrDispFlag regs.dispClrIndex], regs', none) ∧
      ∀ log, queued (log ++ ops) = queued log

section Counting
variable {dec : Decode} {client : Client Regs} {allowed : Act → Prop}

theorem CountingClient.leads (loop : CountingClient dec client allowed)
    (room : dec.kept < dec.regfbcount) (list : Nat → Int) (bufIndex : Int) :
    ∃ sys, Leads (sysStep dec client) allowed (.start dec client list bufIndex) sys ∧
      sys.pc = .decode ∧ sys.display.queuedCount = dec.kept ∧
      sys.display.driver = buffers 0 dec.kept ∧
      Counting dec dec.kept sys.regs sys.log := by
  refine leads_turns dec client allowed loop.getBuf loop.may.1 (Counting dec)
    (fun turn => 0 + (turn : Int)) dec.kept (.inl (Nat.le_refl _)) ?_ ?_ list bufIndex
  · exact ⟨loop.start.1, fun _ => loop.start.2, rfl, by simp [flagged]⟩
  · intro turn less regs log counting
    obtain ⟨picture, may, reports, shown, next⟩ := loop.turn turn regs log counting (by omega)
    rw [Int.zero_add]
    refine ⟨picture, may, reports, shown, ?_⟩
    intro back none
    obtain ⟨clr, rotid, queued', flagged'⟩ := next back
    refine ⟨by rw [clr, none less], ?_, queued', flagged'⟩
    intro mjpg
    rw [rotid mjpg, Int.tmod_eq_of_lt (by omega) (by omega)]
    rfl

/-- In performance mode the buffer queued last is taken for one that came back, and
cleared. -/
theorem CountingClient.unowned (loop : CountingClient dec client allowed)
    (room : dec.kept < dec.regfbcount) (performance : dec.performance = true)
    (list : Nat → Int) (bufIndex : Int) :
    ∃ sys, Leads (sysStep dec client) allowed (.start dec client list bufIndex) sys ∧
      ¬ Owned false sys.log := by
  obtain ⟨sys, leads, pc, queuedCount, _, counting⟩ := loop.leads room list bufIndex
  obtain ⟨picture, may, reports, shown, next⟩ := loop.turn dec.kept sys.regs sys.log counting room
  obtain ⟨sys', more, turned⟩ := leads_turn dec client allowed loop.getBuf loop.may.1 pc may
    reports shown (.inr performance)
  rw [if_pos (by omega)] at turned
  obtain ⟨clr, _, queued', _⟩ := next dec.kept
  rw [← turned.regs] at clr
  rw [← turned.log] at queued'
  obtain ⟨ops, regs', noPicture, quiet⟩ := loop.noPicture sys'.regs (by omega)
  rw [clr] at noPicture
  refine ⟨{ sys' with regs := regs', log := sys'.log ++ (ops ++ [.clrDispFlag dec.kept]) },
    leads.trans (more.trans ⟨[.output .minus2], by simpa using loop.may.2, ?_⟩), ?_⟩
  · simp [runEvents, sysStep, outputStep, turned.pc, Client.allows, noPicture]
  · simp only [← List.append_assoc]
    refine not_owned_clrDispFlag ?_
    rw [quiet, queued']
    simpa using mem_buffers 0 (Nat.lt_succ_self dec.kept)

theorem loopbackDecode_counting (dec : Decode) :
    CountingClient dec (loopbackDecode dec) (JpegPicture dec) where
  getBuf := rfl
  may := ⟨trivial, trivial⟩
  start := ⟨rfl, rfl⟩
  turn turn regs log counting registered := by
    cases mjpg : dec.mjpg with
    | true =>
        refine ⟨0, fun _ => rfl, (reports_iff dec log 0).mpr ⟨by omega, .inl mjpg⟩, ?_, ?_⟩
        · simp [loopbackDecode, loopbackOnOutput, mjpg, counting.rotid mjpg]
        · intro back
          rw [queued_append, counting.queued]
          simp [turnRegs, turnOps, loopbackDecode, loopbackOnOutput, loopbackSetRotatorOps,
            loopbackRecycle, mjpg, counting.rotid mjpg, counting.clr, clrList, queuedStep,
            buffers_succ]
    | false =>
        have clear : (turn : Int) ∉ flagged log := by
          intro mem
          have := counting.flagged mjpg _ mem
          omega
        refine ⟨turn, fun jpeg => by simp [mjpg] at jpeg,
          (reports_iff dec log turn).mpr ⟨registered, .inr clear⟩, ?_, ?_⟩
        · simp [loopbackDecode, loopbackOnOutput, mjpg]
        · intro back
          rw [queued_append, flagged_append, counting.queued]
          simp only [turnRegs, turnOps, loopbackDecode, loopbackOnOutput, loopbackSetRotatorOps,
            loopbackRecycle, mjpg, counting.clr, clrOps_true, clrList]
          refine ⟨by simp, by simp, by simp [queuedStep, buffers_succ], ?_⟩
          intro _ index mem
          rcases List.mem_cons.mp (by simpa [flaggedStep] using mem) with rfl | old
          · omega
          · have := counting.flagged mjpg index old
            omega
  noPicture regs waits := by
    refine ⟨loopbackSetRotatorOps dec regs, { regs with dispClrIndex := -2 }, ?_, ?_⟩
    · simp [loopbackDecode, loopbackOnOutput, loopbackNoPicture, clrList, waits]
    · intro log
      rw [queued_append, loopbackSetRotatorOps]
      split <;> simp [queuedStep]

theorem transcodeStart_counting (plain : dec.postProcessing = false) (flags : dec.mjpg = false) :
    CountingClient dec (transcodeStart dec) (fun _ => True) where
  getBuf := rfl
  may := ⟨trivial, trivial⟩
  start := by simp [transcodeStart, startRegs, plain]
  turn turn regs log counting registered := by
    have clear : (turn : Int) ∉ flagged log := by
      intro mem
      have := counting.flagged flags _ mem
      omega
    refine ⟨turn, trivial, (reports_iff dec log turn).mpr ⟨registered, .inr clear⟩, ?_, ?_⟩
    · simp [transcodeStart, transcodeOnOutput, rotates, plain, flags]
    · intro back
      rw [queued_append, flagged_append, counting.queued]
      simp only [turnRegs, turnOps, transcodeStart, transcodeOnOutput, setRotatorOps, rotates,
        transcodeRecycle, plain, flags, counting.clr, Bool.not_false, clrOps_true, clrList]
      refine ⟨by simp, by simp, by simp [queuedStep, buffers_succ], ?_⟩
      intro _ index mem
      rcases List.mem_cons.mp (by simpa [flaggedStep] using mem) with rfl | old
      · omega
      · have := counting.flagged flags index old
        omega
  noPicture regs waits := by
    refine ⟨[], { regs with dispClrIndex := -2 }, ?_, by simp⟩
    simp [transcodeStart, transcodeOnOutput, transcodeNoPicture, setRotatorOps, rotates, plain,
      flags, clrList, waits]

end Counting

/-- One buffer more than the window: the turns come round to the buffer that still
waits to be cleared, and it is cleared right after it was queued. -/
theorem loopbackDecode_turning_unowned {dec : Decode} (mjpg : dec.mjpg = true)
    (kept : 1 ≤ dec.kept) (count : dec.regfbcount = dec.kept + 1)
    (normal : dec.performance = false) (list : Nat → Int) (bufIndex : Int) :
    ∃ sys, Leads (sysStep dec (loopbackDecode dec)) (JpegPicture dec)
        (.start dec (loopbackDecode dec) list bufIndex) sys ∧
      ¬ Owned false sys.log := by
  have reports : ∀ log, reportsRegistered dec log 0 = true := fun log =>
    (reports_iff dec log 0).mpr ⟨by omega, .inl mjpg⟩
  have shown : ∀ regs, (loopbackOnOutput dec regs (.index 0)).2.2 = some regs.rotid := by
    intro regs
    simp [loopbackOnOutput, mjpg]
  obtain ⟨sys, leads, pc, full, driver, counting⟩ :=
    (loopbackDecode_counting dec).leads (by omega) list bufIndex
  have last := counting.rotid mjpg
  have first : sys.display.driver ++ [sys.regs.rotid] = 0 :: buffers 1 dec.kept := by
    have row := (buffers_succ 0 dec.kept).symm.trans (buffers_cons 0 dec.kept)
    rw [driver, last]
    simpa using row
  obtain ⟨sys', more, pc', full', driver', regs', _⟩ := leads_dequeue dec (loopbackDecode dec)
    (JpegPicture dec) normal trivial pc (fun _ => rfl) (reports sys.log) (shown sys.regs) full first
  have waits : sys'.regs.dispClrIndex = 0 ∧ sys'.regs.rotid = 0 := by
    rw [regs']
    simp [turnRegs, loopbackDecode, loopbackOnOutput, loopbackRecycle, mjpg, last, count]
  obtain ⟨fewer, kept'⟩ : ∃ fewer, dec.kept = fewer + 1 := ⟨dec.kept - 1, by omega⟩
  have second : sys'.display.driver ++ [sys'.regs.rotid] = 1 :: (buffers 2 fewer ++ [0]) := by
    rw [driver', waits.2, kept', buffers_cons]
    rfl
  obtain ⟨sys'', rest, _, _, _, _, log⟩ := leads_dequeue dec (loopbackDecode dec)
    (JpegPicture dec) normal trivial pc' (fun _ => rfl) (reports sys'.log) (shown sys'.regs) full'
    second
  refine ⟨sys'', leads.trans (more.trans rest), ?_⟩
  intro owned
  have clears : sys''.log = sys'.log ++ [Op.setRotatorOutput 0, Op.output 0] ++ [Op.qbuf 0] ++
      [Op.dqbuf 1] ++ [Op.clrDispFlag 0] ++
      [Op.rotid ((0 + 1 : Int).tmod dec.regfbcount)] := by
    rw [log]
    simp [loopbackDecode, loopbackOnOutput, loopbackSetRotatorOps, loopbackRecycle, mjpg, waits,
      clrList]
  rw [clears] at owned
  have waiting : (0 : Int) ∈ queued (sys'.log ++ [Op.setRotatorOutput 0, Op.output 0] ++
      [Op.qbuf 0] ++ [Op.dqbuf 1]) := by
    rw [queued_snoc, queued_snoc]
    exact (List.mem_erase_of_ne (by decide)).mpr
      (List.mem_append_right _ (List.mem_singleton.mpr rfl))
  have front := owned.of_append
  exact not_owned_clrDispFlag waiting front

section Targets
variable {dec : Decode}

structure Targeting (dec : Decode) (turn : Nat) (regs : Regs) (log : List Op) : Prop where
  rotid : regs.rotid = dec.regfbcount + turn
  queued : queued log = buffers dec.regfbcount turn
  flagged : ∀ index ∈ flagged log, index < turn

theorem transcodeStart_targeting (rotated : dec.postProcessing = true) (flags : dec.mjpg = false)
    {turn : Nat} {regs : Regs} {log : List Op} (targeting : Targeting dec turn regs log)
    (registered : turn < dec.regfbcount) :
    reportsRegistered dec log turn = true ∧
      (transcodeOnOutput dec regs (.index turn)).2.2 = some ((dec.regfbcount : Int) + turn) ∧
      ∀ back, ∃ ops,
        turnOps (transcodeStart dec) regs turn (dec.regfbcount + turn) back =
          ops ++ [.rotid (turnRegs (transcodeStart dec) regs turn back).rotid] ∧
        queued (log ++ ops) = buffers dec.regfbcount (turn + 1) ∧
        (∀ index ∈ flagged (log ++ ops), index < (turn : Int) + 1) ∧
        (turnRegs (transcodeStart dec) regs turn back).rotid =
          if back ≠ -1 then back else dec.regfbcount + (turn + 1) := by
  have clear : (turn : Int) ∉ flagged log := by
    intro mem
    have := targeting.flagged _ mem
    omega
  refine ⟨(reports_iff dec log turn).mpr ⟨registered, .inr clear⟩, ?_, ?_⟩
  · simp [transcodeOnOutput, rotates, rotated, targeting.rotid]
  · intro back
    refine ⟨[.setRotatorOutput regs.rotid, .output turn, .qbuf (dec.regfbcount + turn)] ++
      (clrList regs.dispClrIndex).map Op.clrDispFlag, ?_, ?_, ?_, ?_⟩
    · simp [turnRegs, turnOps, transcodeStart, transcodeOnOutput, transcodeRecycle, setRotatorOps,
        rotates, rotated, flags]
    · rw [queued_append, targeting.queued, buffers_succ]
      unfold clrList
      split <;> simp [queuedStep]
    · rw [flagged_append]
      intro index mem
      have within : index ∈ (turn : Int) :: flagged log := by
        unfold clrList at mem
        split at mem
        · simp only [List.map_cons, List.map_nil, List.cons_append, List.nil_append,
            List.foldl_cons, List.foldl_nil, flaggedStep] at mem
          exact (List.mem_filter.mp mem).1
        · simpa [flaggedStep] using mem
      rcases List.mem_cons.mp within with rfl | old
      · omega
      · have := targeting.flagged index old
        omega
    · simp [turnRegs, transcodeStart, transcodeOnOutput, transcodeRecycle, rotated, flags,
        targeting.rotid, Int.add_assoc]

/-- With rotation, the buffer queued last is chosen as the next target. -/
theorem transcodeStart_rotating_unowned (rotated : dec.postProcessing = true)
    (flags : dec.mjpg = false) (room : dec.kept < dec.regfbcount)
    (performance : dec.performance = true) (list : Nat → Int) (bufIndex : Int) :
    ∃ sys, Leads (sysStep dec (transcodeStart dec)) (fun _ => True)
        (.start dec (transcodeStart dec) list bufIndex) sys ∧
      ¬ Owned false sys.log := by
  obtain ⟨sys, leads, pc, queuedCount, _, targeting⟩ := leads_turns dec
    (transcodeStart dec) (fun _ => True) rfl trivial (Targeting dec)
    (fun turn => (dec.regfbcount : Int) + turn) dec.kept (.inr performance)
    ⟨by simp [transcodeStart, startRegs, rotated, flags], rfl, by simp [flagged]⟩
    (by
      intro turn less regs log targeting
      obtain ⟨reports, shown, next⟩ := transcodeStart_targeting rotated flags targeting (by omega)
      refine ⟨turn, trivial, reports, shown, ?_⟩
      intro back none
      obtain ⟨ops, split, queued', flagged', target⟩ := next back
      rw [if_neg (by simp [none less])] at target
      rw [split, ← List.append_assoc]
      exact ⟨target, by rw [queued_snoc, queued']; rfl, by rw [flagged_snoc]; exact flagged'⟩)
    list bufIndex
  obtain ⟨reports, shown, next⟩ := transcodeStart_targeting rotated flags targeting room
  obtain ⟨sys', more, turned⟩ := leads_turn dec (transcodeStart dec) (fun _ => True) rfl trivial pc
    trivial reports shown (.inr performance)
  rw [if_pos (by omega)] at turned
  obtain ⟨ops, split, queued', _, target⟩ := next (dec.regfbcount + dec.kept)
  rw [if_pos (by omega)] at target
  refine ⟨sys', leads.trans more, ?_⟩
  rw [turned.log, split, target, ← List.append_assoc]
  refine not_owned_rotid ?_
  rw [queued']
  exact mem_buffers _ (Nat.lt_succ_self dec.kept)

theorem transcodeStart_going (mjpg : dec.mjpg = true) {turn : Nat} {regs : Regs} {log : List Op}
    (rotid : regs.rotid = (turn : Int)) (queued' : queued log = buffers 0 turn) :
    (transcodeOnOutput dec regs (.index 0)).2.2 = some (turn : Int) ∧
      ∀ back, ∃ ops,
        turnOps (transcodeStart dec) regs 0 turn back =
          ops ++ [.rotid (((turn : Int) + 1).tmod dec.regfbcount)] ∧
        queued (log ++ ops) = buffers 0 (turn + 1) ∧
        (turnRegs (transcodeStart dec) regs 0 back).rotid =
          ((turn : Int) + 1).tmod dec.regfbcount := by
  refine ⟨by simp [transcodeOnOutput, rotates, mjpg, rotid], ?_⟩
  intro back
  refine ⟨[.setRotatorOutput regs.rotid, .output 0, .qbuf turn], ?_, ?_, ?_⟩
  · simp [turnOps, transcodeStart, transcodeOnOutput, transcodeRecycle, setRotatorOps, rotates,
      mjpg, rotid]
  · rw [queued_append, queued', buffers_succ]
    simp [queuedStep]
  · simp [turnRegs, transcodeStart, transcodeOnOutput, transcodeRecycle, mjpg, rotid]

/-- With motion JPEG, the turns go round while the first buffer is in the driver. -/
theorem transcodeStart_turning_unowned (mjpg : dec.mjpg = true) (room : dec.kept < dec.regfbcount)
    (performance : dec.performance = true) (list : Nat → Int) (bufIndex : Int) :
    ∃ sys, Leads (sysStep dec (transcodeStart dec)) (fun _ => True)
        (.start dec (transcodeStart dec) list bufIndex) sys ∧
      ¬ Owned false sys.log := by
  have reports : ∀ log, reportsRegistered dec log 0 = true := fun log =>
    (reports_iff dec log 0).mpr ⟨by omega, .inl mjpg⟩
  obtain ⟨last, count⟩ : ∃ last, dec.regfbcount = last + 1 := ⟨dec.regfbcount - 1, by omega⟩
  obtain ⟨sys, leads, pc, _, _, rotid, queued'⟩ := leads_turns dec (transcodeStart dec)
    (fun _ => True) rfl trivial
    (fun turn regs log => regs.rotid = (turn : Int) ∧ queued log = buffers 0 turn)
    (fun turn => (turn : Int)) last (.inr performance)
    ⟨by simp [transcodeStart, startRegs, mjpg], rfl⟩
    (by
      intro turn less regs log plan
      obtain ⟨shown, later⟩ := transcodeStart_going mjpg plan.1 plan.2
      refine ⟨0, trivial, reports log, shown, ?_⟩
      intro back _
      obtain ⟨ops, split, queued', target⟩ := later back
      refine ⟨by rw [target, Int.tmod_eq_of_lt (by omega) (by omega)]; rfl, ?_⟩
      rw [split, ← List.append_assoc, queued_snoc, queued']
      rfl)
    list bufIndex
  obtain ⟨shown, later⟩ := transcodeStart_going mjpg rotid queued'
  obtain ⟨sys', more, turned⟩ := leads_turn dec (transcodeStart dec) (fun _ => True) rfl trivial pc
    trivial (reports sys.log) shown (.inr performance)
  obtain ⟨ops, split, queued'', _⟩ := later
    (if sys.display.queuedCount + 1 > dec.kept then (last : Int) else -1)
  have round : ((last : Int) + 1).tmod dec.regfbcount = 0 := by
    rw [count]
    exact Int.tmod_self
  refine ⟨sys', leads.trans more, ?_⟩
  rw [turned.log, split, round, ← List.append_assoc]
  refine not_owned_rotid ?_
  rw [queued'']
  exact mem_buffers 0 (Nat.succ_pos last)

end Targets

/-! ## When the rule holds -/

def LoopbackOwned (dec : Decode) : Prop :=
  ∀ list bufIndex acts sys, (∀ act ∈ acts, JpegPicture dec act) →
    runEvents (sysStep dec (loopbackDecode dec)) acts
      (.start dec (loopbackDecode dec) list bufIndex) = some sys → Owned false sys.log

def TranscodeOwned (dec : Decode) : Prop :=
  ∀ list bufIndex acts sys,
    runEvents (sysStep dec (transcodeStart dec)) acts
      (.start dec (transcodeStart dec) list bufIndex) = some sys → Owned false sys.log

/-- Normal mode, and for motion JPEG a buffer more than the window and its target. -/
def LoopbackSafe (dec : Decode) : Prop :=
  dec.performance = false ∧ (dec.mjpg = true → 2 ≤ dec.minfbcount)

/-- Normal mode, and for motion JPEG a buffer more than the window. -/
def TranscodeSafe (dec : Decode) : Prop :=
  dec.performance = false ∧ (dec.mjpg = true → 1 ≤ dec.minfbcount)

/-- The single-owner rule holds in the safe configurations of the two loops, and in
no other one that has buffers besides the window. -/
theorem recycling_owned_iff (dec : Decode) (kept : 1 ≤ dec.kept) :
    (LoopbackSafe dec → LoopbackOwned dec) ∧ (TranscodeSafe dec → TranscodeOwned dec) ∧
      (1 ≤ dec.minfbcount →
        (LoopbackOwned dec → LoopbackSafe dec) ∧ (TranscodeOwned dec → TranscodeSafe dec)) := by
  refine ⟨?_, ?_, ?_⟩
  · rintro ⟨normal, spare⟩ list bufIndex acts sys pictures run
    exact loopbackDecode_owned normal kept spare list bufIndex acts pictures sys run
  · rintro ⟨normal, spare⟩ list bufIndex acts sys run
    exact transcodeStart_owned normal kept spare list bufIndex acts sys run
  · intro registered
    have count : dec.regfbcount = dec.kept + dec.minfbcount := by
      unfold Decode.kept at kept ⊢
      omega
    refine ⟨?_, ?_⟩
    · intro owned
      have safe : ∀ sys, ¬ (Leads (sysStep dec (loopbackDecode dec)) (JpegPicture dec)
          (.start dec (loopbackDecode dec) (fun _ => 0) 0) sys ∧ ¬ Owned false sys.log) := by
        rintro sys ⟨⟨acts, pictures, run⟩, unowned⟩
        exact unowned (owned _ _ acts sys pictures run)
      have normal : dec.performance = false := by
        by_contra performance
        obtain ⟨sys, unowned⟩ := (loopbackDecode_counting dec).unowned (by omega)
          (by simpa using performance) (fun _ => 0) 0
        exact safe sys unowned
      refine ⟨normal, ?_⟩
      intro mjpg
      by_contra few
      obtain ⟨sys, unowned⟩ := loopbackDecode_turning_unowned mjpg kept (by omega) normal
        (fun _ => 0) 0
      exact safe sys unowned
    · intro owned
      refine ⟨?_, fun _ => registered⟩
      have safe : ∀ sys, ¬ (Leads (sysStep dec (transcodeStart dec)) (fun _ => True)
          (.start dec (transcodeStart dec) (fun _ => 0) 0) sys ∧ ¬ Owned false sys.log) := by
        rintro sys ⟨⟨acts, _, run⟩, unowned⟩
        exact unowned (owned _ _ acts sys run)
      by_contra performance
      have performance : dec.performance = true := by simpa using performance
      cases mjpg : dec.mjpg with
      | true =>
          obtain ⟨sys, unowned⟩ := transcodeStart_turning_unowned mjpg (by omega) performance
            (fun _ => 0) 0
          exact safe sys unowned
      | false =>
          cases rotated : dec.postProcessing with
          | true =>
              obtain ⟨sys, unowned⟩ := transcodeStart_rotating_unowned rotated mjpg (by omega)
                performance (fun _ => 0) 0
              exact safe sys unowned
          | false =>
              obtain ⟨sys, unowned⟩ := (transcodeStart_counting rotated mjpg).unowned (by omega)
                performance (fun _ => 0) 0
              exact safe sys unowned

theorem recycling_owned_iff_normal :
    LoopbackOwned ⟨3, 2, false, false, false⟩ ∧ ¬ TranscodeOwned ⟨3, 2, true, false, true⟩ := by
  refine ⟨(recycling_owned_iff ⟨3, 2, false, false, false⟩ (by decide)).1 ⟨rfl, by decide⟩, ?_⟩
  intro owned
  have safe := ((recycling_owned_iff ⟨3, 2, true, false, true⟩ (by decide)).2.2 (by decide)).2 owned
  exact absurd safe.1 (by decide)

/-- Performance mode with a window of one: the loopback test clears buffer 1, which
it has just queued. -/
theorem loopbackDecode_clears_queued :
    let dec : Decode := ⟨3, 2, false, false, true⟩
    let acts : List Act :=
      [Act.output (.index 0)] ++ List.replicate 3 Act.decoder ++
        [Act.output (.index 1)] ++ List.replicate 3 Act.decoder ++ [Act.output .minus2]
    ∃ sys : Sys Regs, runEvents (sysStep dec (loopbackDecode dec)) acts
        (.start dec (loopbackDecode dec) (fun _ => 0) 0) = some sys ∧
      sys.log = [.output 0, .qbuf 0, .output 1, .qbuf 1, .clrDispFlag 1] ∧
      ¬ Owned false sys.log := by
  intro dec acts
  have logged : (runEvents (sysStep dec (loopbackDecode dec)) acts
      (.start dec (loopbackDecode dec) (fun _ => 0) 0)).map (·.log) =
      some [.output 0, .qbuf 0, .output 1, .qbuf 1, .clrDispFlag 1] := by
    decide +kernel
  obtain ⟨sys, run, log⟩ := Option.map_eq_some_iff.mp logged
  refine ⟨sys, run, log, ?_⟩
  intro owned
  rw [log] at owned
  have away := (owned [.output 0, .qbuf 0, .output 1, .qbuf 1] (.clrDispFlag 1) [] rfl).1
  exact away (by decide)

end ImxTest.Vpu.RecyclePerformance
