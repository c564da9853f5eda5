import ImxTest.Lib.Run
import ImxTest.Vpu.BufQueue
import ImxTest.Vpu.Ownership

/-!
# The V4L2 display: `v4l_put_data`, `v4l_get_buf` and the display thread

Buffers travel from the decoder to the driver (`VIDIOC_QBUF`), back from it
(`VIDIOC_DQBUF`) and, with `vpu_DecClrDispFlag`, back to the VPU.  In normal mode
the decoder de-queues by itself; in performance mode a display thread does, and
hands the buffer over through `released_q`, two counters and two semaphores.

A client is the part of a decoding loop that decides which buffer to show and
what to do with a buffer that came back.  `sysStep` runs a client, the library
functions and the thread, one access to shared data at a time; an event names who
moves.  `quitflag` stays unset and every `ioctl` succeeds.
-/

set_option autoImplicit false

namespace ImxTest.Vpu.V4lDisplay

open ImxTest.Lib.Run
open ImxTest.Vpu.Ownership

/-! ## The decoder and the display -/

/-- The fields of `struct decode` that the display depends on.  Rotation, dering
and the tiled-to-linear conversion are one flag here: each of them makes the VPU
write to a buffer of its own. -/
structure Decode where
  regfbcount : Nat
  minfbcount : Nat
  postProcessing : Bool
  mjpg : Bool
  /-- `vpu_v4l_performance_test`. -/
  performance : Bool
  deriving DecidableEq, Repr

def Decode.rotBufCount (dec : Decode) : Nat := dec.regfbcount - dec.minfbcount + 1

def Decode.extrafb (dec : Decode) : Nat := if dec.postProcessing then dec.rotBufCount else 0

def Decode.threshold (dec : Decode) : Nat :=
  if dec.postProcessing then dec.rotBufCount - 1 else dec.regfbcount - dec.minfbcount

/-- The number of buffers the driver may keep. -/
def Decode.kept (dec : Decode) : Nat := dec.regfbcount - dec.minfbcount

@[simp]
theorem Decode.threshold_eq (dec : Decode) : dec.threshold = dec.kept := by
  unfold threshold rotBufCount kept
  split <;> omega

/-- `struct vpu_display`, with the buffers in the driver. -/
structure Display where
  driver : List Int
  queuedCount : Int
  dequeuedCount : Int
  releasedQ : BufQueue
  avaiableDecodingFrame : Nat
  avaiableDequeueFrame : Nat
  /-- `v4l_rsd->buf.index`. -/
  bufIndex : Int

def Display.opened (dec : Decode) (list : Nat → Int) (bufIndex : Int) : Display where
  driver := []
  queuedCount := 0
  dequeuedCount := 0
  releasedQ := .empty list
  avaiableDecodingFrame := dec.regfbcount - dec.minfbcount
  avaiableDequeueFrame := 0
  bufIndex := bufIndex

/-- What the VPU reports in `indexFrameDisplay`. -/
inductive Output where
  | index (index : Nat)
  | minus2
  | minus3
  deriving DecidableEq, Repr

structure Client (Regs : Type) where
  start : Regs
  /-- The pictures that the VPU may report after these operations. -/
  reports : List Op → Nat → Bool
  /-- The loop up to `v4l_put_data`: operations, registers, and the buffer to show. -/
  onOutput : Regs → Output → List Op × Regs × Option Int
  /-- In performance mode the buffer to recycle comes from `v4l_get_buf`. -/
  getBuf : Bool
  /-- The rest of the loop, with the buffer that came back or -1. -/
  recycle : Regs → Int → List Op × Regs

def Client.allows {Regs : Type} (client : Client Regs) (log : List Op) : Output → Bool
  | .index index => client.reports log index
  | .minus2 => true
  | .minus3 => true

/-- The same loop around a VPU that reports fewer pictures. -/
def Client.only {Regs : Type} (client : Client Regs) (keep : Nat → Bool) : Client Regs :=
  { client with reports := fun log index => client.reports log index && keep index }

inductive DecoderPc where
  | decode
  | putCount
  | putTest
  | putDqbuf
  | getWait
  | getTest
  | getDequeue
  | getCount (index : Int)
  | recycle (index : Int)
  deriving DecidableEq, Repr

inductive ThreadPc where
  | wait
  | dqbuf
  | release (index : Int)
  | count
  | post
  deriving DecidableEq, Repr

structure Sys (Regs : Type) where
  display : Display
  pc : DecoderPc
  thread : ThreadPc
  regs : Regs
  log : List Op

inductive Act where
  | output (output : Output)
  | decoder
  | display
  deriving DecidableEq, Repr

section System
variable {Regs : Type} (dec : Decode) (client : Client Regs)

def Sys.start (list : Nat → Int) (bufIndex : Int) : Sys Regs where
  display := .opened dec list bufIndex
  pc := .decode
  thread := .wait
  regs := client.start
  log := []

/-- One frame is decoded; if it is shown, `v4l_put_data` queues its buffer. -/
def outputStep (sys : Sys Regs) (output : Output) : Option (Sys Regs) :=
  if sys.pc = .decode ∧ client.allows sys.log output = true then
    let (ops, regs, shown) := client.onOutput sys.regs output
    match shown with
    | none => some { sys with regs := regs, log := sys.log ++ ops }
    | some index =>
        some
          { sys with
            regs := regs
            log := sys.log ++ ops ++ [.qbuf index]
            pc := .putCount
            display :=
              { sys.display with
                driver := sys.display.driver ++ [index]
                bufIndex := index } }
  else none

/-- Where the client goes after `v4l_put_data`. -/
def afterPut (bufIndex : Int) : DecoderPc :=
  if dec.performance && client.getBuf then .getWait else .recycle bufIndex

/-- The decoder in `v4l_put_data` behind the queueing, in `v4l_get_buf`, and in
the rest of its loop. -/
def decoderStep (sys : Sys Regs) : Option (Sys Regs) :=
  let display := sys.display
  match sys.pc with
  | .decode => none
  | .putCount =>
      some { sys with
        display := { display with queuedCount := display.queuedCount + 1 }
        pc := .putTest }
  | .putTest =>
      if display.queuedCount > dec.threshold then
        if dec.performance then
          some { sys with
            display := { display with
              avaiableDequeueFrame := display.avaiableDequeueFrame + 1 }
            pc := afterPut dec client display.bufIndex }
        else some { sys with pc := .putDqbuf }
      else
        some { sys with
          display := { display with bufIndex := -1 }
          pc := afterPut dec client (-1) }
  | .putDqbuf =>
      match display.driver with
      | [] => none
      | index :: rest =>
          some { sys with
            display := { display with
              driver := rest
              bufIndex := index
              queuedCount := display.queuedCount - 1 }
            log := sys.log ++ [.dqbuf index]
            pc := afterPut dec client index }
  | .getWait =>
      if display.avaiableDecodingFrame = 0 then none
      else
        some { sys with
          display := { display with
            avaiableDecodingFrame := display.avaiableDecodingFrame - 1 }
          pc := .getTest }
  | .getTest =>
      if display.dequeuedCount > 0 then some { sys with pc := .getDequeue }
      else some { sys with pc := .recycle (-1) }
  | .getDequeue =>
      let (releasedQ, index) := display.releasedQ.dequeueBuf
      some { sys with
        display := { display with releasedQ := releasedQ }
        pc := .getCount index }
  | .getCount index =>
      some { sys with
        display := { display with dequeuedCount := display.dequeuedCount - 1 }
        pc := .recycle index }
  | .recycle index =>
      let (ops, regs) := client.recycle sys.regs index
      some { sys with regs := regs, log := sys.log ++ ops, pc := .decode }

def threadStep (sys : Sys Regs) : Option (Sys Regs) :=
  let display := sys.display
  match sys.thread with
  | .wait =>
      if display.avaiableDequeueFrame = 0 then none
      else
        some { sys with
          display := { display with
            avaiableDequeueFrame := display.avaiableDequeueFrame - 1 }
          thread := .dqbuf }
  | .dqbuf =>
      match display.driver with
      | [] => none
      | index :: rest =>
          some { sys with
            display := { display with driver := rest }
            log := sys.log ++ [.dqbuf index]
            thread := .release index }
  | .release index =>
      some { sys with
        display := { display with releasedQ := (display.releasedQ.queueBuf index).1 }
        thread := .count }
  | .count =>
      some { sys with
        display := { display with
          queuedCount := display.queuedCount - 1
          dequeuedCount := display.dequeuedCount + 1 }
        thread := .post }
  | .post =>
      some { sys with
        display := { display with
          avaiableDecodingFrame := display.avaiableDecodingFrame + 1 }
        thread := .wait }

def sysStep (sys : Sys Regs) : Act → Option (Sys Regs)
  | .output output => outputStep client sys output
  | .decoder => decoderStep dec client sys
  | .display => if dec.performance then threadStep sys else none

/-- A run whose pictures are all kept is a run around the smaller VPU. -/
theorem run_only (keep : Nat → Bool) (acts : List Act) (sys : Sys Regs)
    (pictures : ∀ index, Act.output (.index index) ∈ acts → keep index = true) :
    runEvents (sysStep dec client) acts sys =
      runEvents (sysStep dec (client.only keep)) acts sys := by
  refine runEvents_congr acts sys ?_
  intro act mem sys
  cases act with
  | output output =>
      cases output with
      | index index =>
          have same : (client.only keep).allows sys.log (.index index) =
              client.allows sys.log (.index index) := by
            simp [Client.allows, Client.only, pictures index mem]
          simp only [sysStep, outputStep, same]
          rfl
      | minus2 => rfl
      | minus3 => rfl
  | decoder => rfl
  | display => rfl

end System

/-! ## The client over a window -/

structure Model (Regs : Type) where
  window : List Int
  regs : Regs
  log : List Op

section Window
variable {Regs : Type} (dec : Decode) (client : Client Regs)

def Model.start : Model Regs := ⟨[], client.start, []⟩

/-- One turn of the client's loop over the window. -/
def modelStep (model : Model Regs) (output : Output) : Option (Model Regs) :=
  if client.allows model.log output = true then
    let (ops, regs, shown) := client.onOutput model.regs output
    match shown with
    | none => some { model with regs := regs, log := model.log ++ ops }
    | some index =>
        let (window, back) := windowPut dec.kept model.window index
        let (later, regs) := client.recycle regs (back.getD (-1))
        some ⟨window, regs, model.log ++ ops ++ putOps dec.kept model.window index ++ later⟩
  else none

end Window

section Window
variable {Regs : Type} {dec : Decode} {client : Client Regs}

theorem modelStep_shown {model : Model Regs} {output : Output} {ops : List Op} {regs : Regs}
    {index : Int} (allowed : client.allows model.log output = true)
    (onOutput : client.onOutput model.regs output = (ops, regs, some index)) :
    modelStep dec client model output =
      some
        { window := (windowPut dec.kept model.window index).1
          regs := (client.recycle regs ((windowPut dec.kept model.window index).2.getD (-1))).2
          log := model.log ++ ops ++ putOps dec.kept model.window index ++
            (client.recycle regs ((windowPut dec.kept model.window index).2.getD (-1))).1 } := by
  simp only [modelStep, if_pos allowed, onOutput]

def Model.passed (client : Client Regs) (model : Model Regs) (output : Output) : Model Regs where
  window := model.window
  regs := (client.onOutput model.regs output).2.1
  log := model.log ++ (client.onOutput model.regs output).1

def Model.showed (dec : Decode) (client : Client Regs) (model : Model Regs) (output : Output)
    (index : Int) : Model Regs :=
  let turn := client.onOutput model.regs output
  let put := windowPut dec.kept model.window index
  let later := client.recycle turn.2.1 (put.2.getD (-1))
  ⟨put.1, later.2, model.log ++ turn.1 ++ putOps dec.kept model.window index ++ later.1⟩

theorem modelStep_cases {model model' : Model Regs} {output : Output}
    (step : modelStep dec client model output = some model') :
    client.allows model.log output = true ∧
      (((client.onOutput model.regs output).2.2 = none ∧ model' = model.passed client output) ∨
        ∃ index, (client.onOutput model.regs output).2.2 = some index ∧
          model' = model.showed dec client output index) := by
  unfold modelStep at step
  split at step
  · rename_i allowed
    refine ⟨allowed, ?_⟩
    cases shown : (client.onOutput model.regs output).2.2 with
    | none =>
        simp only [shown, Option.some.injEq] at step
        exact .inl ⟨rfl, step.symm⟩
    | some index =>
        simp only [shown, Option.some.injEq] at step
        exact .inr ⟨index, rfl, step.symm⟩
  · cases step

def ModelReaches (dec : Decode) (client : Client Regs) (model : Model Regs) : Prop :=
  ∃ outputs, runEvents (modelStep dec client) outputs (.start client) = some model

theorem ModelReaches.step {model model' : Model Regs} {output : Output}
    (reaches : ModelReaches dec client model)
    (step : modelStep dec client model output = some model') :
    ModelReaches dec client model' := by
  obtain ⟨outputs, run⟩ := reaches
  refine ⟨outputs ++ [output], (runEvents_append _ _ _ _).mpr ⟨model, run, ?_⟩⟩
  exact (runEvents_cons _ _ _ _).mpr ⟨model', step, rfl⟩

/-- The invariant rule for the model: turns with and without a picture. -/
theorem ModelReaches.induct {model : Model Regs} (reaches : ModelReaches dec client model)
    (inv : Model Regs → Prop) (start : inv (.start client))
    (passed : ∀ model output, inv model → client.allows model.log output = true →
      (client.onOutput model.regs output).2.2 = none → inv (model.passed client output))
    (showed : ∀ model output index, inv model → client.allows model.log output = true →
      (client.onOutput model.regs output).2.2 = some index →
      inv (model.showed dec client output index)) : inv model := by
  obtain ⟨outputs, run⟩ := reaches
  refine runEvents_preserves ?_ outputs _ model start run
  intro before output after holds step
  obtain ⟨allowed, ⟨shown, rfl⟩ | ⟨index, shown, rfl⟩⟩ := modelStep_cases step
  · exact passed before output holds allowed shown
  · exact showed before output index holds allowed shown

end Window

/-! ## Both modes refine the window -/

structure Display.Is (display : Display) (driver : List Int) (queued dequeued : Int)
    (released : List Int) (decoding dequeue : Nat) : Prop where
  driver : display.driver = driver
  queued : display.queuedCount = queued
  dequeued : display.dequeuedCount = dequeued
  released : display.releasedQ.contents = released
  decoding : display.avaiableDecodingFrame = decoding
  dequeue : display.avaiableDequeueFrame = dequeue

/-- The credits of the decoder while the window holds `count` buffers. -/
def Decode.credits (dec : Decode) (count : Nat) : Nat :=
  if dec.performance then dec.kept - count else dec.kept

structure Idle (dec : Decode) (window : List Int) (display : Display) : Prop where
  short : window.length ≤ dec.kept
  is : display.Is window window.length 0 [] (dec.credits window.length) 0

/-- `v4l_put_data` and `v4l_get_buf` on their way with a buffer: where the decoder
and the thread are, the display there, and what has been done so far. -/
inductive Putting (dec : Decode) (window : List Int) (index : Int) :
    DecoderPc → ThreadPc → Display → List Op → Prop where
  | count {display : Display} (short : window.length ≤ dec.kept)
      (is : display.Is (window ++ [index]) window.length 0 [] (dec.credits window.length) 0) :
      Putting dec window index .putCount .wait display [.qbuf index]
  | test {display : Display} (short : window.length ≤ dec.kept)
      (is : display.Is (window ++ [index]) (window.length + 1) 0 []
        (dec.credits window.length) 0) :
      Putting dec window index .putTest .wait display [.qbuf index]
  | dqbuf {display : Display} (normal : dec.performance = false)
      (full : window.length = dec.kept)
      (is : display.Is (window ++ [index]) (dec.kept + 1) 0 [] dec.kept 0) :
      Putting dec window index .putDqbuf .wait display [.qbuf index]
  /-- Performance mode with room in the window: the decoder has a credit. -/
  | fillWait {display : Display} (performance : dec.performance = true)
      (room : window.length < dec.kept)
      (is : display.Is (window ++ [index]) (window.length + 1) 0 []
        (dec.kept - window.length) 0) :
      Putting dec window index .getWait .wait display [.qbuf index]
  | fillTest {display : Display} (performance : dec.performance = true)
      (room : window.length < dec.kept)
      (is : display.Is (window ++ [index]) (window.length + 1) 0 []
        (dec.kept - (window.length + 1)) 0) :
      Putting dec window index .getTest .wait display [.qbuf index]
  /-- Performance mode with a full window: the decoder waits while the thread
  moves. -/
  | handWait {display : Display} (performance : dec.performance = true)
      (full : window.length = dec.kept)
      (is : display.Is (window ++ [index]) (dec.kept + 1) 0 [] 0 1) :
      Putting dec window index .getWait .wait display [.qbuf index]
  | handDqbuf {display : Display} (performance : dec.performance = true)
      (full : window.length = dec.kept)
      (is : display.Is (window ++ [index]) (dec.kept + 1) 0 [] 0 0) :
      Putting dec window index .getWait .dqbuf display [.qbuf index]
  | handRelease {display : Display} (oldest : Int) (rest : List Int)
      (performance : dec.performance = true) (full : window.length = dec.kept)
      (both : window ++ [index] = oldest :: rest)
      (is : display.Is rest (dec.kept + 1) 0 [] 0 0) :
      Putting dec window index .getWait (.release oldest) display [.qbuf index, .dqbuf oldest]
  | handCount {display : Display} (oldest : Int) (rest : List Int)
      (performance : dec.performance = true) (full : window.length = dec.kept)
      (both : window ++ [index] = oldest :: rest)
      (is : display.Is rest (dec.kept + 1) 0 [oldest] 0 0) :
      Putting dec window index .getWait .count display [.qbuf index, .dqbuf oldest]
  | handPost {display : Display} (oldest : Int) (rest : List Int)
      (performance : dec.performance = true) (full : window.length = dec.kept)
      (both : window ++ [index] = oldest :: rest)
      (is : display.Is rest dec.kept 1 [oldest] 0 0) :
      Putting dec window index .getWait .post display [.qbuf index, .dqbuf oldest]
  | handed {display : Display} (oldest : Int) (rest : List Int)
      (performance : dec.performance = true) (full : window.length = dec.kept)
      (both : window ++ [index] = oldest :: rest)
      (is : display.Is rest dec.kept 1 [oldest] 1 0) :
      Putting dec window index .getWait .wait display [.qbuf index, .dqbuf oldest]
  | takeTest {display : Display} (oldest : Int) (rest : List Int)
      (performance : dec.performance = true) (full : window.length = dec.kept)
      (both : window ++ [index] = oldest :: rest)
      (is : display.Is rest dec.kept 1 [oldest] 0 0) :
      Putting dec window index .getTest .wait display [.qbuf index, .dqbuf oldest]
  | takeDequeue {display : Display} (oldest : Int) (rest : List Int)
      (performance : dec.performance = true) (full : window.length = dec.kept)
      (both : window ++ [index] = oldest :: rest)
      (is : display.Is rest dec.kept 1 [oldest] 0 0) :
      Putting dec window index .getDequeue .wait display [.qbuf index, .dqbuf oldest]
  | takeCount {display : Display} (oldest : Int) (rest : List Int)
      (performance : dec.performance = true) (full : window.length = dec.kept)
      (both : window ++ [index] = oldest :: rest)
      (is : display.Is rest dec.kept 1 [] 0 0) :
      Putting dec window index (.getCount oldest) .wait display [.qbuf index, .dqbuf oldest]
  | recycle {display : Display} (idle : Idle dec (windowPut dec.kept window index).1 display) :
      Putting dec window index
        (.recycle ((windowPut dec.kept window index).2.getD (-1))) .wait display
        (putOps dec.kept window index)

theorem windowPut_append_full {dec : Decode} {window : List Int} {index oldest : Int}
    {rest : List Int} (full : window.length = dec.kept)
    (both : window ++ [index] = oldest :: rest) :
    rest.length = dec.kept ∧ windowPut dec.kept window index = (rest, some oldest) := by
  have length := congrArg List.length both
  simp only [List.length_append, List.length_cons, List.length_nil] at length
  exact ⟨by omega, windowPut_full dec.kept window index oldest rest both (by omega)⟩

theorem append_eq_cons (window : List Int) (index : Int) :
    ∃ oldest rest, window ++ [index] = oldest :: rest := by
  cases window with
  | nil => exact ⟨index, [], rfl⟩
  | cons oldest rest => exact ⟨oldest, rest ++ [index], rfl⟩

/-- The way with a window that had room ends with nothing handed back. -/
theorem Putting.recycle_room {dec : Decode} {window : List Int} {index : Int}
    {display : Display} (room : window.length < dec.kept)
    (is : display.Is (window ++ [index]) (window.length + 1) 0 []
      (dec.credits (window.length + 1)) 0) :
    Putting dec window index (.recycle (-1)) .wait display [.qbuf index] := by
  have put := windowPut_room dec.kept window index room
  have idle : Idle dec (windowPut dec.kept window index).1 display := by
    rw [put]
    refine ⟨by simp only [List.length_append, List.length_singleton]; omega, ?_⟩
    simpa using is
  have recycled := Putting.recycle idle
  simpa only [put, putOps, Option.getD_none, Option.toList_none, List.map_nil] using recycled

/-- The way with a full window ends with the oldest buffer. -/
theorem Putting.recycle_full {dec : Decode} {window : List Int} {index oldest : Int}
    {rest : List Int} {display : Display} (full : window.length = dec.kept)
    (both : window ++ [index] = oldest :: rest)
    (is : display.Is rest dec.kept 0 [] (dec.credits dec.kept) 0) :
    Putting dec window index (.recycle oldest) .wait display [.qbuf index, .dqbuf oldest] := by
  obtain ⟨length, put⟩ := windowPut_append_full full both
  have idle : Idle dec (windowPut dec.kept window index).1 display := by
    rw [put]
    exact ⟨by simp only; omega, by simpa only [length] using is⟩
  have recycled := Putting.recycle idle
  simpa only [put, putOps, Option.getD_some, Option.toList_some, List.map_cons,
    List.map_nil] using recycled

section Refinement
variable {Regs : Type} {dec : Decode} {client : Client Regs}
  (handsOver : dec.performance = true → client.getBuf = true)

include handsOver in
theorem afterPut_performance (performance : dec.performance = true) (bufIndex : Int) :
    afterPut dec client bufIndex = .getWait := by
  simp [afterPut, performance, handsOver performance]

theorem afterPut_normal (normal : dec.performance = false) (bufIndex : Int) :
    afterPut dec client bufIndex = .recycle bufIndex := by
  simp [afterPut, normal]

include handsOver in
/-- The test of `queued_count` against the threshold: with a full window the thread, or
`v4l_put_data` itself, takes a buffer out. -/
theorem putting_test {window : List Int} {index : Int} {display : Display} (regs : Regs)
    (base : List Op) (sys' : Sys Regs) (short : window.length ≤ dec.kept)
    (is : display.Is (window ++ [index]) (window.length + 1) 0 [] (dec.credits window.length) 0)
    (step : decoderStep dec client ⟨display, .putTest, .wait, regs, base ++ [.qbuf index]⟩ =
      some sys') :
    ∃ done', Putting dec window index sys'.pc sys'.thread sys'.display done' ∧
      sys'.log = base ++ done' ∧ sys'.regs = regs := by
  by_cases full : window.length = dec.kept
  · have beyond : display.queuedCount > dec.threshold := by
      rw [is.queued, Decode.threshold_eq]
      omega
    simp only [decoderStep, if_pos beyond] at step
    by_cases performance : dec.performance = true
    · rw [if_pos performance, afterPut_performance handsOver performance] at step
      obtain rfl := Option.some.inj step
      refine ⟨_, .handWait performance full ⟨is.driver, ?_, is.dequeued, is.released, ?_,
        ?_⟩, rfl, rfl⟩
      · simp only [is.queued, full]
      · simp only [is.decoding, Decode.credits, if_pos performance, full, Nat.sub_self]
      · simp only [is.dequeue, Nat.zero_add]
    · rw [if_neg performance] at step
      obtain rfl := Option.some.inj step
      have normal : dec.performance = false := by simpa using performance
      refine ⟨_, .dqbuf normal full ⟨is.driver, ?_, is.dequeued, is.released, ?_,
        is.dequeue⟩, rfl, rfl⟩
      · simp only [is.queued, full]
      · simp only [is.decoding, Decode.credits, normal, Bool.false_eq_true, if_false]
  · have under : ¬ display.queuedCount > dec.threshold := by
      rw [is.queued, Decode.threshold_eq]
      omega
    simp only [decoderStep, if_neg under] at step
    obtain rfl := Option.some.inj step
    by_cases performance : dec.performance = true
    · rw [afterPut_performance handsOver performance]
      refine ⟨_, .fillWait performance (by omega) ⟨is.driver, is.queued, is.dequeued,
        is.released, ?_, is.dequeue⟩, rfl, rfl⟩
      simp only [is.decoding, Decode.credits, if_pos performance]
    · have normal : dec.performance = false := by simpa using performance
      rw [afterPut_normal normal]
      refine ⟨_, .recycle_room (by omega) ⟨is.driver, is.queued, is.dequeued,
        is.released, ?_, is.dequeue⟩, rfl, rfl⟩
      simp only [is.decoding, Decode.credits, normal, Bool.false_eq_true, if_false]

include handsOver in
theorem putting_decoder {window : List Int} {index : Int} {display : Display} {pc : DecoderPc}
    {thread : ThreadPc} {done : List Op} (regs : Regs) (base : List Op) (sys' : Sys Regs)
    (putting : Putting dec window index pc thread display done)
    (busy : ∀ back, pc ≠ .recycle back)
    (step : decoderStep dec client ⟨display, pc, thread, regs, base ++ done⟩ = some sys') :
    ∃ done', Putting dec window index sys'.pc sys'.thread sys'.display done' ∧
      sys'.log = base ++ done' ∧ sys'.regs = regs := by
  cases putting with
  | count short is =>
      simp only [decoderStep, Option.some.injEq] at step
      subst step
      refine ⟨_, .test short ⟨is.driver, ?_, is.dequeued, is.released, is.decoding,
        is.dequeue⟩, rfl, rfl⟩
      simp only [is.queued]
  | test short is => exact putting_test handsOver regs base sys' short is step
  | dqbuf normal full is =>
      obtain ⟨oldest, rest, both⟩ := append_eq_cons window index
      simp only [decoderStep, is.driver, both] at step
      rw [afterPut_normal normal] at step
      obtain rfl := Option.some.inj step
      refine ⟨_, .recycle_full full both ⟨rfl, ?_, is.dequeued, is.released, ?_, is.dequeue⟩,
        by simp, rfl⟩
      · simp only [is.queued]
        omega
      · simp only [is.decoding, Decode.credits, normal, Bool.false_eq_true, if_false]
  | fillWait performance room is =>
      simp only [decoderStep, is.decoding] at step
      rw [if_neg (by omega)] at step
      obtain rfl := Option.some.inj step
      refine ⟨_, .fillTest performance room ⟨is.driver, is.queued, is.dequeued, is.released,
        ?_, is.dequeue⟩, rfl, rfl⟩
      simp only
      omega
  | fillTest performance room is =>
      simp only [decoderStep, is.dequeued] at step
      rw [if_neg (by decide)] at step
      obtain rfl := Option.some.inj step
      refine ⟨_, .recycle_room room ⟨is.driver, is.queued, is.dequeued, is.released, ?_,
        is.dequeue⟩, rfl, rfl⟩
      simp only [is.decoding, Decode.credits, if_pos performance]
  | handWait performance full is => simp [decoderStep, is.decoding] at step
  | handDqbuf performance full is => simp [decoderStep, is.decoding] at step
  | handRelease oldest rest performance full both is => simp [decoderStep, is.decoding] at step
  | handCount oldest rest performance full both is => simp [decoderStep, is.decoding] at step
  | handPost oldest rest performance full both is => simp [decoderStep, is.decoding] at step
  | handed oldest rest performance full both is =>
      simp only [decoderStep, is.decoding] at step
      rw [if_neg (by decide)] at step
      obtain rfl := Option.some.inj step
      exact ⟨_, .takeTest oldest rest performance full both ⟨is.driver, is.queued, is.dequeued,
        is.released, rfl, is.dequeue⟩, rfl, rfl⟩
  | takeTest oldest rest performance full both is =>
      simp only [decoderStep, is.dequeued] at step
      rw [if_pos (by decide)] at step
      obtain rfl := Option.some.inj step
      exact ⟨_, .takeDequeue oldest rest performance full both is, rfl, rfl⟩
  | takeDequeue oldest rest performance full both is =>
      obtain ⟨taken, left⟩ := BufQueue.dequeueBuf_contents display.releasedQ oldest [] is.released
      simp only [decoderStep, Option.some.injEq] at step
      subst step
      rw [taken]
      exact ⟨_, .takeCount oldest rest performance full both ⟨is.driver, is.queued, is.dequeued,
        left, is.decoding, is.dequeue⟩, rfl, rfl⟩
  | takeCount oldest rest performance full both is =>
      simp only [decoderStep, Option.some.injEq] at step
      subst step
      refine ⟨_, .recycle_full full both ⟨is.driver, is.queued, ?_, is.released, ?_,
        is.dequeue⟩, rfl, rfl⟩
      · simp only [is.dequeued]
        rfl
      · simp only [is.decoding, Decode.credits, if_pos performance, Nat.sub_self]
  | recycle idle => exact absurd rfl (busy _)

theorem putting_thread {window : List Int} {index : Int} {display : Display} {pc : DecoderPc}
    {thread : ThreadPc} {done : List Op} (regs : Regs) (base : List Op) (sys' : Sys Regs)
    (putting : Putting dec window index pc thread display done)
    (step : threadStep ⟨display, pc, thread, regs, base ++ done⟩ = some sys') :
    ∃ done', Putting dec window index sys'.pc sys'.thread sys'.display done' ∧
      sys'.log = base ++ done' ∧ sys'.regs = regs := by
  cases putting with
  | handWait performance full is =>
      simp only [threadStep, is.dequeue] at step
      rw [if_neg (by decide)] at step
      obtain rfl := Option.some.inj step
      exact ⟨_, .handDqbuf performance full ⟨is.driver, is.queued, is.dequeued, is.released,
        is.decoding, rfl⟩, rfl, rfl⟩
  | handDqbuf performance full is =>
      obtain ⟨oldest, rest, both⟩ := append_eq_cons window index
      simp only [threadStep, is.driver, both] at step
      obtain rfl := Option.some.inj step
      exact ⟨_, .handRelease oldest rest performance full both ⟨rfl, is.queued, is.dequeued,
        is.released, is.decoding, is.dequeue⟩, by simp, rfl⟩
  | handRelease oldest rest performance full both is =>
      have room : display.releasedQ.contents.length < maxBufNum := by
        rw [is.released]
        decide
      have released := (BufQueue.queueBuf_contents display.releasedQ oldest room).2
      rw [is.released, List.nil_append] at released
      simp only [threadStep, Option.some.injEq] at step
      subst step
      exact ⟨_, .handCount oldest rest performance full both ⟨is.driver, is.queued, is.dequeued,
        released, is.decoding, is.dequeue⟩, rfl, rfl⟩
  | handCount oldest rest performance full both is =>
      simp only [threadStep, Option.some.injEq] at step
      subst step
      refine ⟨_, .handPost oldest rest performance full both ⟨is.driver, ?_, ?_, is.released,
        is.decoding, is.dequeue⟩, rfl, rfl⟩
      · simp only [is.queued]
        omega
      · simp only [is.dequeued]
        rfl
  | handPost oldest rest performance full both is =>
      simp only [threadStep, Option.some.injEq] at step
      subst step
      refine ⟨_, .handed oldest rest performance full both ⟨is.driver, is.queued, is.dequeued,
        is.released, ?_, is.dequeue⟩, rfl, rfl⟩
      simp only [is.decoding]
  | count short is => simp [threadStep, is.dequeue] at step
  | test short is => simp [threadStep, is.dequeue] at step
  | dqbuf normal full is => simp [threadStep, is.dequeue] at step
  | fillWait performance room is => simp [threadStep, is.dequeue] at step
  | fillTest performance room is => simp [threadStep, is.dequeue] at step
  | handed oldest rest performance full both is => simp [threadStep, is.dequeue] at step
  | takeTest oldest rest performance full both is => simp [threadStep, is.dequeue] at step
  | takeDequeue oldest rest performance full both is => simp [threadStep, is.dequeue] at step
  | takeCount oldest rest performance full both is => simp [threadStep, is.dequeue] at step
  | recycle idle => simp [threadStep, idle.is.dequeue] at step

/-- The system and the window model go together: between frames, or with a frame
on its way that the model has not taken yet. -/
inductive Sim (dec : Decode) (client : Client Regs) : Sys Regs → Model Regs → Prop where
  | between (sys : Sys Regs) (model : Model Regs) (pc : sys.pc = .decode)
      (thread : sys.thread = .wait) (regs : sys.regs = model.regs) (log : sys.log = model.log)
      (idle : Idle dec model.window sys.display) : Sim dec client sys model
  | within (sys : Sys Regs) (model : Model Regs) (output : Output) (ops done : List Op)
      (index : Int) (allowed : client.allows model.log output = true)
      (onOutput : client.onOutput model.regs output = (ops, sys.regs, some index))
      (log : sys.log = model.log ++ ops ++ done)
      (putting : Putting dec model.window index sys.pc sys.thread sys.display done) :
      Sim dec client sys model

theorem idle_opened (dec : Decode) (list : Nat → Int) (bufIndex : Int) :
    Idle dec [] (.opened dec list bufIndex) := by
  refine ⟨Nat.zero_le _, rfl, rfl, rfl, BufQueue.contents_empty list, ?_, rfl⟩
  simp only [Display.opened, Decode.credits, Decode.kept, List.length_nil, Nat.sub_zero, ite_self]

theorem sim_output {sys sys' : Sys Regs} {model : Model Regs} {output : Output}
    (sim : Sim dec client sys model) (step : outputStep client sys output = some sys') :
    ∃ model', (model' = model ∨ modelStep dec client model output = some model') ∧
      Sim dec client sys' model' := by
  unfold outputStep at step
  split at step
  · rename_i enabled
    obtain ⟨decoding, allowed⟩ := enabled
    cases sim with
    | between pc thread regs log idle =>
        rw [log] at allowed
        rw [regs] at step
        have taken : client.onOutput model.regs output =
          ((client.onOutput model.regs output).1, (client.onOutput model.regs output).2.1,
            (client.onOutput model.regs output).2.2) := rfl
        cases shown : (client.onOutput model.regs output).2.2 with
        | none =>
            simp only [shown, Option.some.injEq] at step
            subst step
            refine ⟨⟨model.window, (client.onOutput model.regs output).2.1,
              model.log ++ (client.onOutput model.regs output).1⟩, .inr ?_,
              .between _ _ pc thread rfl ?_ idle⟩
            · simp only [modelStep, if_pos allowed, shown]
            · simp only [log]
        | some index =>
            simp only [shown, Option.some.injEq] at step
            subst step
            refine ⟨model, .inl rfl, .within _ _ output (client.onOutput model.regs output).1
              [.qbuf index] index allowed ?_ ?_ ?_⟩
            · rw [taken, shown]
            · simp only [log]
            · simp only [thread]
              exact .count idle.short ⟨by simp only [idle.is.driver], idle.is.queued,
                idle.is.dequeued, idle.is.released, idle.is.decoding, idle.is.dequeue⟩
    | within _ ops done index allowed onOutput log putting =>
        rw [decoding] at putting
        cases putting
  · cases step

include handsOver in
theorem sim_decoder {sys sys' : Sys Regs} {model : Model Regs} (sim : Sim dec client sys model)
    (step : decoderStep dec client sys = some sys') :
    ∃ model', (model' = model ∨ ∃ output, modelStep dec client model output = some model') ∧
      Sim dec client sys' model' := by
  cases sim with
  | between pc thread regs log idle =>
      unfold decoderStep at step
      rw [pc] at step
      cases step
  | within output ops done index allowed onOutput log putting =>
      obtain ⟨display, pc, thread, regs, log⟩ := sys
      simp only at onOutput log putting
      subst log
      by_cases busy : ∀ back, pc ≠ .recycle back
      · obtain ⟨done', putting', log', regs'⟩ := putting_decoder handsOver regs
          (model.log ++ ops) sys' putting busy step
        exact ⟨model, .inl rfl, .within _ _ output ops done' index allowed
          (by rw [onOutput, regs']) log' putting'⟩
      · -- the frame is finished, and the model takes it in one step
        push Not at busy
        obtain ⟨back, rfl⟩ := busy
        cases putting with
        | recycle idle =>
            simp only [decoderStep, Option.some.injEq] at step
            subst step
            exact ⟨_, .inr ⟨output, modelStep_shown allowed onOutput⟩,
              .between _ _ rfl rfl rfl rfl idle⟩

theorem sim_thread {sys sys' : Sys Regs} {model : Model Regs} (sim : Sim dec client sys model)
    (step : threadStep sys = some sys') : Sim dec client sys' model := by
  cases sim with
  | between pc thread regs log idle => simp [threadStep, thread, idle.is.dequeue] at step
  | within output ops done index allowed onOutput log putting =>
      obtain ⟨display, pc, thread, regs, log⟩ := sys
      simp only at onOutput log putting
      subst log
      obtain ⟨done', putting', log', regs'⟩ := putting_thread regs (model.log ++ ops) sys'
        putting step
      exact .within _ _ output ops done' index allowed (by rw [onOutput, regs']) log' putting'

include handsOver in
/-- Every interleaving follows a run of the window model. -/
theorem sysStep_refines (list : Nat → Int) (bufIndex : Int) (acts : List Act)
    (sys : Sys Regs)
    (run : runEvents (sysStep dec client) acts (.start dec client list bufIndex) = some sys) :
    ∃ model, ModelReaches dec client model ∧ Sim dec client sys model := by
  have preserved : ∀ (sys : Sys Regs) (act : Act) (sys' : Sys Regs),
      (∃ model, ModelReaches dec client model ∧ Sim dec client sys model) →
      sysStep dec client sys act = some sys' →
      ∃ model, ModelReaches dec client model ∧ Sim dec client sys' model := by
    rintro sys act sys' ⟨model, reaches, sim⟩ step
    cases act with
    | output output =>
        obtain ⟨model', moved, sim'⟩ := sim_output sim step
        refine ⟨model', ?_, sim'⟩
        rcases moved with rfl | moved
        · exact reaches
        · exact reaches.step moved
    | decoder =>
        obtain ⟨model', moved, sim'⟩ := sim_decoder handsOver sim step
        refine ⟨model', ?_, sim'⟩
        rcases moved with rfl | ⟨output, moved⟩
        · exact reaches
        · exact reaches.step moved
    | display =>
        rw [sysStep] at step
        split at step
        · exact ⟨model, reaches, sim_thread sim step⟩
        · cases step
  exact runEvents_preserves preserved acts _ sys ⟨.start client, ⟨[], rfl⟩,
    .between (.start dec client list bufIndex) (.start client) rfl rfl rfl rfl
      (idle_opened dec list bufIndex)⟩ run

/-- What has been done on the way is the first part of what the model does. -/
theorem Putting.done_part {window : List Int} {index : Int} {pc : DecoderPc}
    {thread : ThreadPc} {display : Display} {done : List Op}
    (putting : Putting dec window index pc thread display done) :
    ∃ more, putOps dec.kept window index = done ++ more := by
  have started : ∃ more, putOps dec.kept window index = [.qbuf index] ++ more := ⟨_, rfl⟩
  have handed : ∀ oldest rest, window.length = dec.kept → window ++ [index] = oldest :: rest →
      ∃ more, putOps dec.kept window index = [.qbuf index, .dqbuf oldest] ++ more := by
    intro oldest rest full both
    refine ⟨[], ?_⟩
    rw [putOps, (windowPut_append_full full both).2]
    rfl
  cases putting with
  | count _ _ => exact started
  | test _ _ => exact started
  | dqbuf _ _ _ => exact started
  | fillWait _ _ _ => exact started
  | fillTest _ _ _ => exact started
  | handWait _ _ _ => exact started
  | handDqbuf _ _ _ => exact started
  | handRelease oldest rest _ full both _ => exact handed oldest rest full both
  | handCount oldest rest _ full both _ => exact handed oldest rest full both
  | handPost oldest rest _ full both _ => exact handed oldest rest full both
  | handed oldest rest _ full both _ => exact handed oldest rest full both
  | takeTest oldest rest _ full both _ => exact handed oldest rest full both
  | takeDequeue oldest rest _ full both _ => exact handed oldest rest full both
  | takeCount oldest rest _ full both _ => exact handed oldest rest full both
  | recycle _ => exact ⟨[], by simp⟩

include handsOver in
/-- Ownership in every run of the window model gives it in every interleaving. -/
theorem owned_of_model (once : Bool)
    (owned : ∀ model, ModelReaches dec client model → Owned once model.log)
    (list : Nat → Int) (bufIndex : Int) (acts : List Act) (sys : Sys Regs)
    (run : runEvents (sysStep dec client) acts (.start dec client list bufIndex) = some sys) :
    Owned once sys.log := by
  obtain ⟨model, reaches, sim⟩ := sysStep_refines handsOver list bufIndex acts sys run
  cases sim with
  | between pc thread regs log idle =>
      rw [log]
      exact owned model reaches
  | within output ops done index allowed onOutput log putting =>
      obtain ⟨more, part⟩ := putting.done_part
      have later := owned _ (reaches.step (modelStep_shown allowed onOutput))
      simp only [part] at later
      rw [← List.append_assoc, List.append_assoc _ more, ← log] at later
      exact later.of_append

end Refinement

end ImxTest.Vpu.V4lDisplay
