import Mathlib.Data.List.Induction
import Mathlib.Data.List.Nodup
import Mathlib.Data.List.Perm.Subperm
import ImxTest.Vpu.DecoderDisplay
import ImxTest.Vpu.IpuFrames

/-!
# `decoder_start` with an IPU display

With this destination the loop only puts buffers: it neither clears display flags
nor chooses rotation buffers, and leaves the first to the display thread.  The thread
clears the buffers that were put.  Without post-processing these are the VPU's own
and every one comes back in its turn; with post-processing they are not.
-/

set_option autoImplicit false

namespace ImxTest.Vpu.IpuDecoder

open ImxTest.Lib.Run
open ImxTest.Lib.Watch
open ImxTest.Vpu.Ownership
open ImxTest.Vpu.V4lDisplay (Decode Output)
open ImxTest.Vpu.DisplayClient (reportsRegistered reports_iff)
open ImxTest.Vpu.DecoderDisplay
open ImxTest.Vpu.IpuDisplay
open ImxTest.Vpu.IpuControl
open ImxTest.Vpu.IpuFrames

/-! ## The loop and the display -/

/-- The loop up to `ipu_put_data`.  Without a picture it does nothing: both
`vpu_DecClrDispFlag` and the assignment to `disp_clr_index` are for other
destinations. -/
def ipuOnOutput (dec : Decode) (regs : DisplayClient.Regs) :
    Output → List Op × DisplayClient.Regs × Option Int
  | .index index => decoderOnOutput dec regs (.index index)
  | .minus2 => (setRotatorOps dec regs, regs, none)
  | .minus3 => (setRotatorOps dec regs, regs, none)

structure DecSys where
  ipu : Sys
  regs : DisplayClient.Regs

inductive DecAct where
  | output (output : Output)
  | main
  | thread
  deriving DecidableEq, Repr

def DecSys.start (dec : Decode) (list : Nat → Int) : DecSys := ⟨.start list, startRegs dec⟩

def allows (dec : Decode) (log : List Op) : Output → Bool
  | .index index => reportsRegistered dec log index
  | .minus2 => true
  | .minus3 => true

/-- One frame is decoded; if it is shown, `ipu_put_data` is called with the field of a
progressive picture. -/
def outputStep (dec : Decode) (sys : DecSys) (output : Output) : Option DecSys :=
  if sys.ipu.main = .ready ∧ allows dec sys.ipu.log output = true then
    let (ops, regs, shown) := ipuOnOutput dec sys.regs output
    let ipu := { sys.ipu with log := sys.ipu.log ++ ops }
    match shown with
    | none => some ⟨ipu, regs⟩
    | some index => (putStep ipu index.toNat false).map (⟨·, regs⟩)
  else none

def decStep (dec : Decode) (motion : Motion) (sys : DecSys) : DecAct → Option DecSys
  | .output output => outputStep dec sys output
  | .main => (mainStep sys.ipu).map (⟨·, sys.regs⟩)
  | .thread => (threadStep ⟨motion, dec.mjpg⟩ sys.ipu).map (⟨·, sys.regs⟩)

/-! ## What has to come back -/

/-- The reports that were not cleared yet, each with the number of frames put before
it, and the number of frames put. -/
def reportStep (state : List (Int × Nat) × Nat) : Op → List (Int × Nat) × Nat
  | .output index => (state.1 ++ [(index, state.2)], state.2)
  | .qbuf _ => (state.1, state.2 + 1)
  | .clrDispFlag index => (state.1.filter (·.1 ≠ index), state.2)
  | _ => state

def reports (log : List Op) : List (Int × Nat) × Nat := log.foldl reportStep ([], 0)

@[simp]
theorem reports_snoc (log : List Op) (op : Op) :
    reports (log ++ [op]) = reportStep (reports log) op := by
  simp [reports]

def takenStep (count : Nat) : Op → Nat
  | .dqbuf _ => count + 1
  | _ => count

def framesTaken (log : List Op) : Nat := log.foldl takenStep 0

@[simp]
theorem framesTaken_snoc (log : List Op) (op : Op) :
    framesTaken (log ++ [op]) = takenStep (framesTaken log) op := by
  simp [framesTaken]

/-- A flag is cleared for a registered buffer that the VPU has reported and that was
not cleared since; a rotation buffer, if there are several, is not written while it
waits in the queue. -/
def ReturnSafe (dec : Decode) (log : List Op) : Op → Prop
  | .clrDispFlag index => 0 ≤ index ∧ index < dec.regfbcount ∧ index ∈ flagged log
  | .setRotatorOutput index => 1 < dec.rotBufCount → index ∉ queued log
  | _ => True

structure ReturnsReported (dec : Decode) (log : List Op) : Prop where
  safe : Everywhere (ReturnSafe dec) log
  /-- Of the frames put behind that of a report, two may be taken before it is
  cleared. -/
  prompt : ∀ report ∈ (reports log).1, framesTaken log ≤ report.2 + 1 + 2

theorem mem_flagged_iff (log : List Op) (index : Int) :
    index ∈ flagged log ↔ ∃ puts, (index, puts) ∈ (reports log).1 := by
  induction log using List.reverseRecOn with
  | nil => simp [flagged, reports]
  | append_singleton log op ih =>
      rw [flagged_snoc, reports_snoc]
      cases op with
      | output other =>
          simp only [flaggedStep, reportStep, List.mem_cons, List.mem_append, ih]
          constructor
          · rintro (rfl | ⟨puts, mem⟩)
            · exact ⟨_, .inr (.inl rfl)⟩
            · exact ⟨puts, .inl mem⟩
          · rintro ⟨puts, mem | same | none⟩
            · exact .inr ⟨puts, mem⟩
            · exact .inl (congrArg Prod.fst same)
            · cases none
      | clrDispFlag other =>
          simp only [flaggedStep, reportStep, List.mem_filter, ih]
          constructor
          · rintro ⟨⟨puts, mem⟩, kept⟩
            exact ⟨puts, mem, kept⟩
          · rintro ⟨puts, mem, kept⟩
            exact ⟨⟨puts, mem⟩, kept⟩
      | setRotatorOutput other => exact ih
      | qbuf other => exact ih
      | dqbuf other => exact ih
      | rotid other => exact ih

/-! ## The chain of buffers -/

/-- The buffers that the thread holds, those in the queue and one on its way into it
are the unreturned reports, in order. -/
structure Chain (dec : Decode) (log : List Op) (queue pending : List Int) : Prop where
  safe : Everywhere (ReturnSafe dec) log
  reported : (reports log).1 =
    (held log ++ queue ++ pending).zipIdx (framesTaken log - (held log).length)
  puts : (reports log).2 = framesTaken log + queue.length
  taken : (held log).length ≤ framesTaken log
  nodup : (held log ++ queue ++ pending).Nodup
  registered : ∀ index ∈ held log ++ queue ++ pending, 0 ≤ index ∧ index < dec.regfbcount

section Chain
variable {dec : Decode} {log : List Op} {queue pending : List Int} {index : Int}

theorem Chain.flagged_iff (chain : Chain dec log queue pending) :
    index ∈ flagged log ↔ index ∈ held log ++ queue ++ pending := by
  rw [mem_flagged_iff, chain.reported]
  constructor
  · rintro ⟨puts, mem⟩
    exact List.fst_mem_of_mem_zipIdx mem
  · intro mem
    have fst := List.zipIdx_map_fst (framesTaken log - (held log).length)
      (held log ++ queue ++ pending)
    rw [← fst] at mem
    obtain ⟨⟨_, puts⟩, report, rfl⟩ := List.mem_map.mp mem
    exact ⟨puts, report⟩

theorem chain_nil : Chain dec [] [] [] :=
  ⟨everywhere_nil, rfl, rfl, Nat.le_refl _, List.nodup_nil, by simp [held]⟩

theorem Chain.output (chain : Chain dec log queue []) (picture : Nat)
    (reported : reportsRegistered dec log picture = true) (flags : dec.mjpg = false) :
    Chain dec (log ++ [.output picture]) queue [(picture : Int)] := by
  obtain ⟨registered, unflagged⟩ := (reports_iff dec log picture).mp reported
  simp only [flags, Bool.false_eq_true, false_or, chain.flagged_iff, List.append_nil] at unflagged
  have nodup := chain.nodup
  have all := chain.registered
  have before := chain.reported
  rw [List.append_nil] at nodup all before
  have holds : held (log ++ [Op.output picture]) = held log := held_snoc ..
  have count : framesTaken (log ++ [Op.output picture]) = framesTaken log := framesTaken_snoc ..
  have place : (held log ++ queue).length + (framesTaken log - (held log).length) =
      (reports log).2 := by
    have := chain.taken
    rw [chain.puts, List.length_append]
    omega
  refine ⟨everywhere_snoc.mpr ⟨chain.safe, trivial⟩, ?_, ?_, ?_, ?_, ?_⟩
  · rw [holds, count, reports_snoc, List.zipIdx_append, List.zipIdx_singleton, ← before,
      Nat.add_comm _ (held log ++ queue).length, place]
    rfl
  · rw [count, reports_snoc]
    exact chain.puts
  · rw [holds, count]
    exact chain.taken
  · rw [holds]
    exact nodup.append (List.nodup_singleton _) (by simpa using unflagged)
  · rw [holds]
    intro index mem
    rcases List.mem_append.mp mem with mem | mem
    · exact all index mem
    · rw [List.mem_singleton.mp mem]
      omega

theorem Chain.qbuf (chain : Chain dec log queue [index]) :
    Chain dec (log ++ [.qbuf index]) (queue ++ [index]) [] := by
  have holds : held (log ++ [Op.qbuf index]) = held log := held_snoc ..
  have count : framesTaken (log ++ [Op.qbuf index]) = framesTaken log := framesTaken_snoc ..
  have same : held log ++ (queue ++ [index]) ++ [] = held log ++ queue ++ [index] := by simp
  refine ⟨everywhere_snoc.mpr ⟨chain.safe, trivial⟩, ?_, ?_, ?_, ?_, ?_⟩
  · rw [holds, count, same, reports_snoc]
    exact chain.reported
  · rw [count, reports_snoc, List.length_append, List.length_singleton, ← Nat.add_assoc,
      ← chain.puts]
    rfl
  · rw [holds, count]
    exact chain.taken
  · rw [holds, same]
    exact chain.nodup
  · rw [holds, same]
    exact chain.registered

theorem Chain.dqbuf (chain : Chain dec log (index :: queue) pending) :
    Chain dec (log ++ [.dqbuf index]) queue pending := by
  have holds : held (log ++ [Op.dqbuf index]) = held log ++ [index] := held_snoc ..
  have count : framesTaken (log ++ [Op.dqbuf index]) = framesTaken log + 1 := framesTaken_snoc ..
  have same : held log ++ [index] ++ queue ++ pending = held log ++ index :: queue ++ pending := by
    simp
  refine ⟨everywhere_snoc.mpr ⟨chain.safe, trivial⟩, ?_, ?_, ?_, ?_, ?_⟩
  · rw [holds, count, same, reports_snoc, List.length_append, List.length_singleton,
      Nat.add_sub_add_right]
    exact chain.reported
  · have puts := chain.puts
    rw [List.length_cons] at puts
    rw [count, reports_snoc]
    simp only [reportStep]
    omega
  · have := chain.taken
    rw [holds, count, List.length_append, List.length_singleton]
    omega
  · rw [holds, same]
    exact chain.nodup
  · rw [holds, same]
    exact chain.registered

theorem Chain.clrDispFlag (chain : Chain dec log queue pending)
    (oldest : (held log).head? = some index) :
    Chain dec (log ++ [.clrDispFlag index]) queue pending := by
  obtain ⟨rest, older⟩ : ∃ rest, held log = index :: rest := List.head?_eq_some_iff.mp oldest
  have holds : held (log ++ [Op.clrDispFlag index]) = rest := by
    rw [held_snoc, heldStep, older, List.erase_cons_head]
  have count : framesTaken (log ++ [Op.clrDispFlag index]) = framesTaken log := framesTaken_snoc ..
  have reported := chain.reported
  have nodup := chain.nodup
  have registered := chain.registered
  have taken := chain.taken
  have mine : index ∈ flagged log := by
    rw [chain.flagged_iff, older]
    simp
  rw [older] at reported nodup registered taken
  simp only [List.cons_append, List.length_cons] at reported nodup registered taken
  obtain ⟨only, nodup⟩ := List.nodup_cons.mp nodup
  have range := registered index (List.mem_cons_self ..)
  refine ⟨everywhere_snoc.mpr ⟨chain.safe, range.1, range.2, mine⟩, ?_, ?_, ?_, ?_, ?_⟩
  · have others : ∀ report ∈ (rest ++ queue ++ pending).zipIdx (framesTaken log - rest.length),
        decide (report.1 ≠ index) = true := by
      intro report mem
      rw [decide_eq_true_eq]
      rintro rfl
      exact only (List.fst_mem_of_mem_zipIdx mem)
    have next : framesTaken log - (rest.length + 1) + 1 = framesTaken log - rest.length := by omega
    rw [holds, count, reports_snoc]
    simp only [reportStep, reported, List.zipIdx_cons, next]
    rw [List.filter_cons_of_neg (by simp), List.filter_eq_self.mpr others]
  · rw [count, reports_snoc]
    exact chain.puts
  · rw [holds, count]
    omega
  · rw [holds]
    exact nodup
  · rw [holds]
    exact fun one mem => registered one (List.mem_cons_of_mem _ mem)

theorem Chain.length (chain : Chain dec log queue pending) :
    queue.length + pending.length ≤ dec.regfbcount := by
  have inside : held log ++ queue ++ pending ⊆ (List.range dec.regfbcount).map Int.ofNat := by
    intro index mem
    obtain ⟨nonneg, registered⟩ := chain.registered index mem
    obtain ⟨picture, rfl⟩ := Int.eq_ofNat_of_zero_le nonneg
    exact List.mem_map.mpr ⟨picture, List.mem_range.mpr (by omega), rfl⟩
  have short := (chain.nodup.subperm inside).length_le
  simp only [List.length_append, List.length_map, List.length_range] at short
  omega

/-- With at most two buffers in the thread's hands, every report is cleared in time. -/
theorem Chain.returnsReported (chain : Chain dec log queue pending)
    (few : (held log).length ≤ 2) : ReturnsReported dec log := by
  refine ⟨chain.safe, ?_⟩
  intro report mem
  rw [chain.reported] at mem
  have := List.le_snd_of_mem_zipIdx mem
  omega

end Chain

/-! ## Without post-processing -/

def pending : MainPc → List Int
  | .putQueue index => [(index : Int)]
  | _ => []

structure Direct (dec : Decode) (motion : Motion) (sys : DecSys) : Prop where
  frames : Frames ⟨motion, dec.mjpg⟩ sys.ipu
  progressive : sys.ipu.display.deinterlaced = false
  chain : Chain dec sys.ipu.log sys.ipu.display.ipuQ.contents (pending sys.ipu.main)

section Direct
variable {dec : Decode} {motion : Motion} {sys sys' : DecSys}

theorem Direct.returnsReported (direct : Direct dec motion sys) :
    ReturnsReported dec sys.ipu.log := by
  refine direct.chain.returnsReported ?_
  have bounded := direct.frames.returnsOnce.bounded
  simpa [needed, lowMotion, direct.progressive] using bounded

theorem frames_log {config : Config} {ipu : Sys} {log : List Op} (frames : Frames config ipu)
    (same : held log = held ipu.log) : Frames config { ipu with log := log } :=
  ⟨frames.indices, by rw [same]; exact frames.nonneg, frames.main, frames.stopping,
    by simp only [same]; exact frames.history⟩

theorem ipuOnOutput_direct (plain : dec.postProcessing = false) (flags : dec.mjpg = false)
    (regs : DisplayClient.Regs) (output : Output) :
    (∃ picture, output = .index picture ∧ ∃ after,
      ipuOnOutput dec regs output = ([.output picture], after, some (picture : Int))) ∨
      ipuOnOutput dec regs output = ([], regs, none) := by
  cases output with
  | index picture =>
      refine .inl ⟨picture, rfl, { regs with indexFrameDisplay := picture }, ?_⟩
      simp [ipuOnOutput, decoderOnOutput, setRotatorOps, rotates, plain, flags]
  | minus2 => exact .inr (by simp [ipuOnOutput, setRotatorOps, rotates, plain, flags])
  | minus3 => exact .inr (by simp [ipuOnOutput, setRotatorOps, rotates, plain, flags])

theorem Direct.output {output : Output} (plain : dec.postProcessing = false)
    (flags : dec.mjpg = false) (direct : Direct dec motion sys)
    (step : outputStep dec sys output = some sys') : Direct dec motion sys' := by
  unfold outputStep at step
  split at step
  · rename_i enabled
    obtain ⟨ready, allowed⟩ := enabled
    have chain := direct.chain
    rw [ready] at chain
    obtain ⟨picture, rfl, after, turn⟩ | turn :=
      ipuOnOutput_direct plain flags sys.regs output
    · simp only [turn, Option.map_eq_some_iff] at step
      obtain ⟨ipu, put, rfl⟩ := step
      have frames := frames_log direct.frames (held_snoc sys.ipu.log (.output picture))
      have frames' := frames.put (show SetsEarly _ _ (.put _ false) from trivial) put
      simp only [putStep, ready, if_true, Option.some.injEq] at put
      subst put
      refine ⟨frames', by simp [direct.progressive], ?_⟩
      simpa [pending] using chain.output picture allowed flags
    · simp only [turn, List.append_nil, Option.some.injEq] at step
      subst step
      exact ⟨direct.frames, direct.progressive, direct.chain⟩
  · cases step

theorem Direct.main (fits : dec.regfbcount ≤ maxBufNum) (direct : Direct dec motion sys)
    {ipu : Sys} (step : mainStep sys.ipu = some ipu) : Direct dec motion ⟨ipu, sys.regs⟩ := by
  have frames := direct.frames.mainStep step
  have chain := direct.chain
  have putting := direct.frames.main
  cases main : sys.ipu.main <;> simp only [main, inPut, Bool.false_eq_true] at putting
  case ready => simp [mainStep, main] at step
  case putQueue index =>
    simp only [main, pending] at chain
    have room := chain.length
    rw [List.length_singleton] at room
    have grown := (BufQueue.queueBuf_contents sys.ipu.display.ipuQ index (by omega)).2
    simp only [mainStep, main, Option.some.injEq] at step
    subst step
    refine ⟨frames, direct.progressive, ?_⟩
    simp only [grown, pending]
    exact chain.qbuf
  case putSignal =>
    simp only [main, pending] at chain
    simp only [mainStep, main, Option.some.injEq] at step
    subst step
    exact ⟨frames, direct.progressive, chain⟩

theorem threadStep_log {config : Config} {ipu ipu' : Sys} (indices : Indices ipu)
    (step : threadStep config ipu = some ipu') :
    ipu'.main = ipu.main ∧ ipu'.display.deinterlaced = ipu.display.deinterlaced ∧
      ((ipu'.log = ipu.log ∧ ipu'.display.ipuQ = ipu.display.ipuQ) ∨
        (∃ index rest, ipu.display.ipuQ.contents = index :: rest ∧
          ipu'.log = ipu.log ++ [.dqbuf index] ∧ ipu'.display.ipuQ.contents = rest) ∨
        (ipu.thread = .clrDispFlag ∧ ipu'.log = ipu.log ++ [.clrDispFlag ipu.regs.dispClrIndex] ∧
          ipu'.display.ipuQ = ipu.display.ipuQ)) := by
  cases thread : ipu.thread <;> simp only [threadStep, thread] at step
  case dequeue | dequeueAgain =>
    obtain ⟨empty, same⟩ | ⟨index, rest, contents, nonneg, taken, left⟩ := dequeueBuf_cases indices
    · rw [same] at step
      obtain rfl := Option.some.inj step
      exact ⟨rfl, rfl, .inl ⟨rfl, rfl⟩⟩
    · rw [taken, if_neg nonneg, if_neg nonneg] at step
      obtain rfl := Option.some.inj step
      exact ⟨rfl, rfl, .inr (.inl ⟨index, rest, contents, rfl, left⟩)⟩
  case clrDispFlag =>
    obtain rfl := Option.some.inj step
    exact ⟨rfl, rfl, .inr (.inr ⟨rfl, rfl, rfl⟩)⟩
  case asleep | gone => cases step
  case branch =>
    split at step
    · obtain rfl := Option.some.inj step
      exact ⟨rfl, rfl, .inl ⟨rfl, rfl⟩⟩
    · split at step <;>
        (obtain rfl := Option.some.inj step; exact ⟨rfl, rfl, .inl ⟨rfl, rfl⟩⟩)
  case branchInit =>
    split at step <;> (obtain rfl := Option.some.inj step; exact ⟨rfl, rfl, .inl ⟨rfl, rfl⟩⟩)
  all_goals
    obtain rfl := Option.some.inj step
    exact ⟨rfl, rfl, .inl ⟨rfl, rfl⟩⟩

theorem Direct.thread (flags : dec.mjpg = false) (direct : Direct dec motion sys)
    {ipu : Sys} (step : threadStep ⟨motion, dec.mjpg⟩ sys.ipu = some ipu) :
    Direct dec motion ⟨ipu, sys.regs⟩ := by
  have frames := direct.frames.threadStep flags step
  obtain ⟨main, deinterlaced, change⟩ := threadStep_log direct.frames.indices step
  refine ⟨frames, deinterlaced.trans direct.progressive, ?_⟩
  have chain := direct.chain
  simp only [main]
  obtain ⟨log, queue⟩ | ⟨index, rest, contents, log, left⟩ | ⟨clears, log, queue⟩ := change
  · rw [log, queue]
    exact chain
  · rw [contents] at chain
    rw [log, left]
    exact chain.dqbuf
  · rw [log, queue]
    exact chain.clrDispFlag (direct.frames.returnsOnce.clears clears).1

theorem direct_start (dec : Decode) (motion : Motion) (list : Nat → Int) :
    Direct dec motion (.start dec list) := by
  refine ⟨frames_start _ list, rfl, ?_⟩
  have empty : (DecSys.start dec list).ipu.display.ipuQ.contents = [] :=
    BufQueue.contents_empty list
  rw [empty]
  exact chain_nil

theorem Direct.step {act : DecAct} (plain : dec.postProcessing = false) (flags : dec.mjpg = false)
    (fits : dec.regfbcount ≤ maxBufNum) (direct : Direct dec motion sys)
    (step : decStep dec motion sys act = some sys') : Direct dec motion sys' := by
  cases act with
  | output output => exact direct.output plain flags step
  | main =>
      obtain ⟨ipu, moved, rfl⟩ := Option.map_eq_some_iff.mp step
      exact direct.main fits moved
  | thread =>
      obtain ⟨ipu, moved, rfl⟩ := Option.map_eq_some_iff.mp step
      exact direct.thread flags moved

end Direct

/-! ## With post-processing -/

/-- The second picture goes to the queue as rotation buffer `regfbcount`, and in the
next turn the VPU is given the same buffer to write to. -/
theorem rotating_reuses (dec : Decode) (motion : Motion) (list : Nat → Int)
    (rotated : dec.postProcessing = true) (flags : dec.mjpg = false)
    (registered : 2 ≤ dec.regfbcount) :
    (runEvents (decStep dec motion)
        [.output (.index 0), .output (.index 1), .main, .main, .output .minus2]
        (.start dec list)).map (·.ipu.log) =
      some [.setRotatorOutput dec.regfbcount, .output 0, .setRotatorOutput dec.regfbcount,
        .output 1, .qbuf dec.regfbcount, .setRotatorOutput dec.regfbcount] := by
  have first : 0 < dec.regfbcount := by omega
  have second : 1 < dec.regfbcount := by omega
  simp [runEvents, decStep, outputStep, allows, reportsRegistered, DecSys.start, Sys.start,
    startRegs, ipuOnOutput, decoderOnOutput, setRotatorOps, rotates, rotated, flags, first, second,
    putStep, mainStep, flagged, flaggedStep]

/-- Every buffer of the VPU comes back, in every interleaving, iff there is no
post-processing. -/
theorem ipu_returns_reported_iff (dec : Decode) (motion : Motion) (flags : dec.mjpg = false)
    (least : 1 ≤ dec.minfbcount) (kept : dec.minfbcount < dec.regfbcount)
    (fits : dec.regfbcount ≤ maxBufNum) :
    (∀ list acts sys, runEvents (decStep dec motion) acts (.start dec list) = some sys →
      ReturnsReported dec sys.ipu.log) ↔ dec.postProcessing = false := by
  constructor
  · intro returns
    by_contra notPlain
    have rotated : dec.postProcessing = true := by simpa using notPlain
    obtain ⟨sys, run, log⟩ := Option.map_eq_some_iff.mp
      (rotating_reuses dec motion (fun _ => 0) rotated flags (by omega))
    have safe := (returns _ _ sys run).safe
    rw [log] at safe
    have several : 1 < dec.rotBufCount := by
      unfold Decode.rotBufCount
      omega
    have absent : (dec.regfbcount : Int) ∉ queued [.setRotatorOutput dec.regfbcount, .output 0,
        .setRotatorOutput dec.regfbcount, .output 1, .qbuf dec.regfbcount] :=
      safe _ (.setRotatorOutput dec.regfbcount) [] rfl several
    simp [queued, queuedStep] at absent
  · intro plain list acts sys run
    have direct : Direct dec motion sys :=
      runEvents_preserves (fun _ _ _ direct step => direct.step plain flags fits step) acts _ sys
        (direct_start dec motion list) run
    exact direct.returnsReported

theorem ipu_returns_reported_iff_plain :
    (∀ list acts sys,
      runEvents (decStep ⟨4, 2, false, false, false⟩ .med) acts
        (.start ⟨4, 2, false, false, false⟩ list) = some sys →
      ReturnsReported ⟨4, 2, false, false, false⟩ sys.ipu.log) ↔
      (⟨4, 2, false, false, false⟩ : Decode).postProcessing = false :=
  ipu_returns_reported_iff ⟨4, 2, false, false, false⟩ .med rfl (by decide) (by decide) (by decide)

/-- Four registered buffers and rotation: pictures 1 and 2 are both put as rotation
buffer 4, and for the second of them the thread clears the flag of buffer 4. -/
theorem ipu_clears_rotation_buffer :
    let dec : Decode := ⟨4, 2, true, false, false⟩
    let acts : List DecAct :=
      [.output (.index 0), .output (.index 1), .main, .main, .output (.index 2), .main, .main] ++
        List.replicate 14 DecAct.thread
    ∃ sys : DecSys, runEvents (decStep dec .med) acts (.start dec fun _ => 0) = some sys ∧
      sys.ipu.log = [.setRotatorOutput 4, .output 0, .setRotatorOutput 4, .output 1, .qbuf 4,
        .setRotatorOutput 4, .output 2, .qbuf 4, .dqbuf 4, .dqbuf 4, .clrDispFlag 4] ∧
      ¬ ReturnsReported dec sys.ipu.log := by
  intro dec acts
  have logged : (runEvents (decStep dec .med) acts (.start dec fun _ => 0)).map (·.ipu.log) =
      some [.setRotatorOutput 4, .output 0, .setRotatorOutput 4, .output 1, .qbuf 4,
        .setRotatorOutput 4, .output 2, .qbuf 4, .dqbuf 4, .dqbuf 4, .clrDispFlag 4] := by
    decide +kernel
  obtain ⟨sys, run, log⟩ := Option.map_eq_some_iff.mp logged
  refine ⟨sys, run, log, ?_⟩
  intro returns
  rw [log] at returns
  have inside := (returns.safe [.setRotatorOutput 4, .output 0, .setRotatorOutput 4, .output 1,
    .qbuf 4, .setRotatorOutput 4, .output 2, .qbuf 4, .dqbuf 4, .dqbuf 4] (.clrDispFlag 4) []
    rfl).2.1
  exact absurd inside (by decide)

end ImxTest.Vpu.IpuDecoder
