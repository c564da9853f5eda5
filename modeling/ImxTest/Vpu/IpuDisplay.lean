import ImxTest.Lib.Run
import ImxTest.Vpu.BufQueue
import ImxTest.Vpu.Ownership

/-!
# The IPU display: `ipu_put_data`, `ipu_display_close` and the display thread

The decoder's side queues a buffer in `ipu_q` and signals `ipu_cond`; the thread
takes buffers out, sleeps in `pthread_cond_wait` when there are none, shows each on
the frame buffer and clears the display flag of one that the IPU no longer needs.
Only the thread takes `ipu_mutex`, so it never waits for it.

`sysStep` runs the two sides one access to shared data at a time, from the moment
at which `ipu_display_open` has created the thread.  A signal wakes the thread only
if it sleeps, and nothing else wakes it.  The IPU tasks and the addresses given to
them are left out; whether their calls fail is up to the event.
-/

set_option autoImplicit false

namespace ImxTest.Vpu.IpuDisplay

open ImxTest.Lib.Run
open ImxTest.Vpu.Ownership

inductive Motion where
  | low
  | med
  | high
  deriving DecidableEq, Repr

structure Config where
  motion : Motion
  mjpg : Bool
  deriving DecidableEq, Repr

/-- `struct vpu_display`. -/
structure Display where
  ipuQ : BufQueue
  ncount : Nat
  deinterlaced : Bool
  stopping : Bool

/-- The variables of `ipu_disp_loop_thread`, with `tmp_idx` as three fields. -/
structure Regs where
  index : Int
  dispClrIndex : Int
  tmp0 : Int
  tmp1 : Int
  tmp2 : Int
  deriving DecidableEq, Repr

inductive ThreadPc where
  | start
  | dequeue
  -- `wait_queue`, between a look at an empty queue and the sleep
  | lock
  | setWaiting
  | condWait
  | asleep
  | unlock
  | resetWaiting
  | dequeueAgain
  -- the frame: the tests on `ncount` and `deinterlaced`, and what they lead to
  | branch
  | branchInit
  | init
  | initUpdate
  | initShift
  | update
  | updateShift
  -- the frame: the condition around `vpu_DecClrDispFlag`
  | testStopping
  | testMotion
  | clrDispFlag
  | count
  -- behind the loop
  | uninit
  | stop
  | gone
  deriving DecidableEq, Repr

inductive MainPc where
  | ready
  | putQueue (index : Nat)
  | putSignal
  | closeDeinterlaced
  | pollRunning
  | pollSize
  | pollWaiting
  | testRunning
  | closeSignal
  | join
  | destroyMutex
  | destroyCond
  | free
  | closed
  deriving DecidableEq, Repr

structure Sys where
  display : Display
  ipuWaiting : Bool
  ipuRunning : Bool
  main : MainPc
  thread : ThreadPc
  regs : Regs
  /-- `ipu_display_close` has called `wakeup_queue`. -/
  signalled : Bool
  /-- `queue_buf`, successful `dequeue_buf` and `vpu_DecClrDispFlag`. -/
  log : List Op

inductive Act where
  /-- `ipu_put_data` is called with the field of an interlaced picture or another. -/
  | put (index : Nat) (interlaced : Bool)
  /-- `ipu_display_close` is called. -/
  | close
  | main
  | thread
  /-- The library call of the thread fails. -/
  | threadFails
  deriving DecidableEq, Repr

/-- After `pthread_create` in `ipu_display_open`, whatever the queue's cells hold. -/
def Sys.start (list : Nat → Int) : Sys where
  display := ⟨.empty list, 0, false, false⟩
  ipuWaiting := false
  ipuRunning := false
  main := .ready
  thread := .start
  regs := ⟨-1, 0, 0, 0, 0⟩
  signalled := false
  log := []

/-- `pthread_cond_signal`: the thread wakes if it sleeps. -/
def wakeupQueue (thread : ThreadPc) : ThreadPc :=
  if thread = .asleep then .unlock else thread

def putStep (sys : Sys) (index : Nat) (interlaced : Bool) : Option Sys :=
  if sys.main = .ready then
    some { sys with
      display := { sys.display with deinterlaced := sys.display.deinterlaced || interlaced }
      main := .putQueue index }
  else none

def closeStep (sys : Sys) : Option Sys :=
  if sys.main = .ready then
    some { sys with display := { sys.display with stopping := true }, main := .closeDeinterlaced }
  else none

/-- The rest of `ipu_put_data` and of `ipu_display_close`. -/
def mainStep (sys : Sys) : Option Sys :=
  match sys.main with
  | .ready => none
  | .putQueue index =>
      some { sys with
        display := { sys.display with ipuQ := (sys.display.ipuQ.queueBuf index).1 }
        main := .putSignal
        log := sys.log ++ [.qbuf index] }
  | .putSignal => some { sys with thread := wakeupQueue sys.thread, main := .ready }
  | .closeDeinterlaced =>
      some { sys with
        display := { sys.display with deinterlaced := false }
        main := .pollRunning }
  | .pollRunning =>
      some { sys with main := if sys.ipuRunning then .pollSize else .testRunning }
  | .pollSize =>
      some { sys with main := if sys.display.ipuQ.size > 0 then .pollRunning else .pollWaiting }
  | .pollWaiting =>
      some { sys with main := if sys.ipuWaiting then .testRunning else .pollRunning }
  | .testRunning =>
      some { sys with main := if sys.ipuRunning then .closeSignal else .destroyMutex }
  | .closeSignal =>
      some { sys with thread := wakeupQueue sys.thread, signalled := true, main := .join }
  | .join => if sys.thread = .gone then some { sys with main := .destroyMutex } else none
  | .destroyMutex => some { sys with main := .destroyCond }
  | .destroyCond => some { sys with main := .free }
  | .free => some { sys with main := .closed }
  | .closed => none

/-- `deinterlaced == 1 && motion_sel != HIGH_MOTION`. -/
def lowMotion (config : Config) (display : Display) : Bool :=
  display.deinterlaced && config.motion ≠ .high

def threadStep (config : Config) (sys : Sys) : Option Sys :=
  let display := sys.display
  let regs := sys.regs
  match sys.thread with
  | .start => some { sys with ipuRunning := true, thread := .dequeue }
  | .dequeue =>
      let (ipuQ, index) := display.ipuQ.dequeueBuf
      some { sys with
        display := { display with ipuQ := ipuQ }
        regs := { regs with dispClrIndex := regs.index, index := index }
        thread := if index < 0 then .lock else .branch
        log := if index < 0 then sys.log else sys.log ++ [.dqbuf index] }
  | .lock => some { sys with thread := .setWaiting }
  | .setWaiting => some { sys with ipuWaiting := true, thread := .condWait }
  | .condWait => some { sys with thread := .asleep }
  | .asleep => none
  | .unlock => some { sys with thread := .resetWaiting }
  | .resetWaiting => some { sys with ipuWaiting := false, thread := .dequeueAgain }
  | .dequeueAgain =>
      let (ipuQ, index) := display.ipuQ.dequeueBuf
      some { sys with
        display := { display with ipuQ := ipuQ }
        regs := { regs with index := index }
        thread := if index < 0 then .uninit else .branch
        log := if index < 0 then sys.log else sys.log ++ [.dqbuf index] }
  | .branch =>
      if display.ncount = 0 then
        some { sys with regs := { regs with tmp0 := regs.index }, thread := .testStopping }
      else if lowMotion config display ∧ display.ncount = 1 then
        some { sys with regs := { regs with tmp1 := regs.index }, thread := .testStopping }
      else some { sys with thread := .branchInit }
  | .branchInit =>
      if display.ncount = 1 ∨ lowMotion config display ∧ display.ncount = 2 then
        some { sys with thread := .init }
      else some { sys with thread := .update }
  | .init => some { sys with thread := .initUpdate }
  | .initUpdate => some { sys with thread := .initShift }
  | .initShift =>
      some { sys with
        regs :=
          { regs with
            tmp2 := regs.index
            dispClrIndex := if lowMotion config display then regs.tmp0 else regs.dispClrIndex }
        thread := .testStopping }
  | .update => some { sys with thread := .updateShift }
  | .updateShift =>
      some { sys with
        regs :=
          if lowMotion config display then
            { regs with
              tmp0 := regs.tmp1
              tmp1 := regs.tmp2
              tmp2 := regs.index
              dispClrIndex := regs.tmp1 }
          else regs
        thread := .testStopping }
  | .testStopping =>
      some { sys with
        thread :=
          if config.mjpg = false ∧ 0 ≤ regs.dispClrIndex ∧ display.stopping = false then .testMotion
          else .count }
  | .testMotion =>
      some { sys with
        thread := if lowMotion config display ∧ display.ncount < 2 then .count else .clrDispFlag }
  | .clrDispFlag =>
      some { sys with log := sys.log ++ [.clrDispFlag regs.dispClrIndex], thread := .count }
  | .count =>
      some { sys with display := { display with ncount := display.ncount + 1 }, thread := .dequeue }
  | .uninit => some { sys with thread := .stop }
  | .stop => some { sys with ipuRunning := false, thread := .gone }
  | .gone => none

/-- A failed library call leaves the loop; a failed `mxc_ipu_lib_task_init` leaves
the thread at once, with `ipu_running` set. -/
def threadFailStep (sys : Sys) : Option Sys :=
  match sys.thread with
  | .init => some { sys with thread := .gone }
  | .initUpdate => some { sys with thread := .uninit }
  | .update => some { sys with thread := .uninit }
  | .clrDispFlag => some { sys with thread := .uninit }
  | _ => none

def sysStep (config : Config) (sys : Sys) : Act → Option Sys
  | .put index interlaced => putStep sys index interlaced
  | .close => closeStep sys
  | .main => mainStep sys
  | .thread => threadStep config sys
  | .threadFails => threadFailStep sys

end ImxTest.Vpu.IpuDisplay
