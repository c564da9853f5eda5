import ImxTest.Vpu.IpuDisplay

/-!
# When the IPU display thread sleeps, wakes and ends

Between the two sides of the IPU display only a few data matter: what is in
`ipu_q`, the two flags, and where each side is.  `Move` says what every step does
to these, and every step of the system is such a move.  On that level this module
says when a wake-up is missed, when the thread ends and when the display is freed,
and what has to hold of a run for these to be right.
-/

set_option autoImplicit false

namespace ImxTest.Vpu.IpuControl

open ImxTest.Lib.Run
open ImxTest.Vpu.Ownership
open ImxTest.Vpu.IpuDisplay

/-! ## The data that both sides use -/

structure Control where
  /-- The buffers in `ipu_q`, oldest first. -/
  frames : List Int
  /-- The buffers put and not taken out, oldest first. -/
  put : List Int
  waiting : Bool
  running : Bool
  main : MainPc
  thread : ThreadPc
  signalled : Bool
  deriving DecidableEq

def control (sys : Sys) : Control where
  frames := sys.display.ipuQ.contents
  put := queued sys.log
  waiting := sys.ipuWaiting
  running := sys.ipuRunning
  main := sys.main
  thread := sys.thread
  signalled := sys.signalled

def works : ThreadPc → Bool
  | .branch | .branchInit | .init | .initUpdate | .initShift | .update | .updateShift => true
  | .testStopping | .testMotion | .clrDispFlag | .count => true
  | _ => false

/-- The thread has seen an empty queue and does not sleep yet. -/
def falling : ThreadPc → Bool
  | .lock | .setWaiting | .condWait => true
  | _ => false

def woken : ThreadPc → Bool
  | .unlock | .resetWaiting | .dequeueAgain => true
  | _ => false

def finished : ThreadPc → Bool
  | .uninit | .stop | .gone => true
  | _ => false

@[grind →]
theorem works_elsewhere {thread : ThreadPc} (working : works thread = true) :
    falling thread = false ∧ woken thread = false ∧ finished thread = false ∧
      thread ≠ .start ∧ thread ≠ .dequeue ∧ thread ≠ .asleep := by
  cases thread <;> simp [works, falling, woken, finished] at working ⊢

/-- What each step does to the data that both sides use. -/
inductive Move : Control → Act → Control → Prop where
  | puts (c : Control) (index : Nat) (interlaced : Bool) (main : c.main = .ready) :
      Move c (.put index interlaced) { c with main := .putQueue index }
  | closes (c : Control) (main : c.main = .ready) :
      Move c .close { c with main := .closeDeinterlaced }
  | queues (c : Control) (index : Nat) (main : c.main = .putQueue index)
      (room : c.frames.length < maxBufNum) :
      Move c .main { c with
        frames := c.frames ++ [(index : Int)]
        put := c.put ++ [(index : Int)]
        main := .putSignal }
  | drops (c : Control) (index : Nat) (main : c.main = .putQueue index)
      (full : ¬ c.frames.length < maxBufNum) :
      Move c .main { c with put := c.put ++ [(index : Int)], main := .putSignal }
  | signals (c : Control) (main : c.main = .putSignal) :
      Move c .main { c with thread := wakeupQueue c.thread, main := .ready }
  | closesDeinterlaced (c : Control) (main : c.main = .closeDeinterlaced) :
      Move c .main { c with main := .pollRunning }
  | pollsRunning (c : Control) (main : c.main = .pollRunning) :
      Move c .main { c with main := if c.running then .pollSize else .testRunning }
  | pollsSize (c : Control) (main : c.main = .pollSize) :
      Move c .main { c with main := if c.frames = [] then .pollWaiting else .pollRunning }
  | pollsWaiting (c : Control) (main : c.main = .pollWaiting) :
      Move c .main { c with main := if c.waiting then .testRunning else .pollRunning }
  | testsRunning (c : Control) (main : c.main = .testRunning) :
      Move c .main { c with main := if c.running then .closeSignal else .destroyMutex }
  | closeSignals (c : Control) (main : c.main = .closeSignal) :
      Move c .main { c with thread := wakeupQueue c.thread, signalled := true, main := .join }
  | joins (c : Control) (main : c.main = .join) (gone : c.thread = .gone) :
      Move c .main { c with main := .destroyMutex }
  | destroysMutex (c : Control) (main : c.main = .destroyMutex) :
      Move c .main { c with main := .destroyCond }
  | destroysCond (c : Control) (main : c.main = .destroyCond) :
      Move c .main { c with main := .free }
  | frees (c : Control) (main : c.main = .free) : Move c .main { c with main := .closed }
  | starts (c : Control) (thread : c.thread = .start) :
      Move c .thread { c with running := true, thread := .dequeue }
  | takes (c : Control) (index : Int) (rest : List Int)
      (thread : c.thread = .dequeue ∨ c.thread = .dequeueAgain)
      (frames : c.frames = index :: rest) :
      Move c .thread { c with frames := rest, put := c.put.erase index, thread := .branch }
  | falls (c : Control) (thread : c.thread = .dequeue) (empty : c.frames = []) :
      Move c .thread { c with thread := .lock }
  | locks (c : Control) (thread : c.thread = .lock) :
      Move c .thread { c with thread := .setWaiting }
  | setsWaiting (c : Control) (thread : c.thread = .setWaiting) :
      Move c .thread { c with waiting := true, thread := .condWait }
  | sleeps (c : Control) (thread : c.thread = .condWait) :
      Move c .thread { c with thread := .asleep }
  | unlocks (c : Control) (thread : c.thread = .unlock) :
      Move c .thread { c with thread := .resetWaiting }
  | resetsWaiting (c : Control) (thread : c.thread = .resetWaiting) :
      Move c .thread { c with waiting := false, thread := .dequeueAgain }
  | ends (c : Control) (thread : c.thread = .dequeueAgain) (empty : c.frames = []) :
      Move c .thread { c with thread := .uninit }
  | works (c : Control) (next : ThreadPc) (thread : works c.thread = true)
      (goesOn : works next = true ∨ next = .dequeue) : Move c .thread { c with thread := next }
  | uninits (c : Control) (thread : c.thread = .uninit) :
      Move c .thread { c with thread := .stop }
  | stops (c : Control) (thread : c.thread = .stop) :
      Move c .thread { c with running := false, thread := .gone }
  | fails (c : Control) (next : ThreadPc) (thread : works c.thread = true)
      (leaves : next = .uninit ∨ next = .gone) : Move c .threadFails { c with thread := next }

def Indices (sys : Sys) : Prop := ∀ index ∈ sys.display.ipuQ.contents, 0 ≤ index

section Simulation
variable {config : Config} {sys sys' : Sys}

theorem putStep_moves {index : Nat} {interlaced : Bool}
    (step : putStep sys index interlaced = some sys') :
    Move (control sys) (.put index interlaced) (control sys') := by
  unfold putStep at step
  split at step
  · rename_i ready
    obtain rfl := Option.some.inj step
    exact .puts (control sys) index interlaced ready
  · cases step

theorem closeStep_moves (step : closeStep sys = some sys') :
    Move (control sys) .close (control sys') := by
  unfold closeStep at step
  split at step
  · rename_i ready
    obtain rfl := Option.some.inj step
    exact .closes (control sys) ready
  · cases step

theorem size_pos_iff (q : BufQueue) : q.size > 0 ↔ q.contents ≠ [] := by
  rw [← q.contents_length]
  exact List.length_pos_iff

theorem mainStep_moves (step : mainStep sys = some sys') :
    Move (control sys) .main (control sys') := by
  cases main : sys.main
  case putQueue index =>
    simp only [mainStep, main, Option.some.injEq] at step
    subst step
    by_cases room : sys.display.ipuQ.contents.length < maxBufNum
    · have frames := (BufQueue.queueBuf_contents _ (index : Int) room).2
      have moved := Move.queues (control sys) index main room
      simpa only [control, frames, queued_snoc, queuedStep] using moved
    · have frames := BufQueue.queueBuf_full _ (index : Int) room
      have moved := Move.drops (control sys) index main room
      simpa only [control, frames, queued_snoc, queuedStep] using moved
  case pollSize =>
    have moved := Move.pollsSize (control sys) main
    simp only [mainStep, main, Option.some.injEq] at step
    subst step
    by_cases empty : sys.display.ipuQ.contents = []
    · rw [if_neg (by rw [size_pos_iff]; simp [empty])]
      simp only [control, empty, if_true] at moved ⊢
      exact moved
    · rw [if_pos ((size_pos_iff _).mpr empty)]
      simp only [control, empty, if_false] at moved ⊢
      exact moved
  case join =>
    simp only [mainStep, main] at step
    split at step
    · rename_i gone
      obtain rfl := Option.some.inj step
      exact .joins (control sys) main gone
    · cases step
  -- The other places set `main`, a signal apart, and look at nothing but a flag.
  all_goals simp only [mainStep, main, Option.some.injEq, reduceCtorEq] at step
  all_goals subst step
  case putSignal => exact .signals (control sys) main
  case closeDeinterlaced => exact .closesDeinterlaced (control sys) main
  case pollRunning => exact .pollsRunning (control sys) main
  case pollWaiting => exact .pollsWaiting (control sys) main
  case testRunning => exact .testsRunning (control sys) main
  case closeSignal => exact .closeSignals (control sys) main
  case destroyMutex => exact .destroysMutex (control sys) main
  case destroyCond => exact .destroysCond (control sys) main
  case free => exact .frees (control sys) main

/-- A look into the queue: it gives the oldest buffer or, below zero, nothing. -/
theorem dequeueBuf_cases (indices : Indices sys) :
    (sys.display.ipuQ.contents = [] ∧ sys.display.ipuQ.dequeueBuf = (sys.display.ipuQ, -1)) ∨
      ∃ index rest, sys.display.ipuQ.contents = index :: rest ∧ ¬ index < 0 ∧
        sys.display.ipuQ.dequeueBuf.2 = index ∧ sys.display.ipuQ.dequeueBuf.1.contents = rest := by
  cases contents : sys.display.ipuQ.contents with
  | nil => exact .inl ⟨rfl, BufQueue.dequeueBuf_empty _ contents⟩
  | cons index rest =>
      have nonneg : 0 ≤ index := indices index (by rw [contents]; exact List.mem_cons_self ..)
      obtain ⟨taken, left⟩ := BufQueue.dequeueBuf_contents _ index rest contents
      exact .inr ⟨index, rest, rfl, by omega, taken, left⟩

theorem threadStep_dequeue (indices : Indices sys) (thread : sys.thread = .dequeue)
    (step : threadStep config sys = some sys') : Move (control sys) .thread (control sys') := by
  simp only [threadStep, thread, Option.some.injEq] at step
  subst step
  obtain ⟨empty, same⟩ | ⟨index, rest, contents, nonneg, taken, left⟩ := dequeueBuf_cases indices
  · have moved := Move.falls (control sys) thread empty
    simpa [control, same] using moved
  · have moved := Move.takes (control sys) index rest (.inl thread) contents
    simpa [control, taken, left, nonneg, queuedStep] using moved

theorem threadStep_dequeueAgain (indices : Indices sys) (thread : sys.thread = .dequeueAgain)
    (step : threadStep config sys = some sys') : Move (control sys) .thread (control sys') := by
  simp only [threadStep, thread, Option.some.injEq] at step
  subst step
  obtain ⟨empty, same⟩ | ⟨index, rest, contents, nonneg, taken, left⟩ := dequeueBuf_cases indices
  · have moved := Move.ends (control sys) thread empty
    simpa [control, same] using moved
  · have moved := Move.takes (control sys) index rest (.inr thread) contents
    simpa [control, taken, left, nonneg, queuedStep] using moved

/-- With a frame in hand the thread touches nothing that the other side looks at. -/
theorem threadStep_works (thread : works sys.thread = true)
    (step : threadStep config sys = some sys') : Move (control sys) .thread (control sys') := by
  suffices next : (works sys'.thread = true ∨ sys'.thread = .dequeue) ∧
      control sys' = { control sys with thread := sys'.thread } by
    rw [next.2]
    exact .works (control sys) sys'.thread thread next.1
  cases pc : sys.thread <;> simp only [works, pc, Bool.false_eq_true] at thread
  all_goals simp only [threadStep, pc] at step
  case branch =>
    split at step
    · obtain rfl := Option.some.inj step
      exact ⟨.inl rfl, rfl⟩
    · split at step
      · obtain rfl := Option.some.inj step
        exact ⟨.inl rfl, rfl⟩
      · obtain rfl := Option.some.inj step
        exact ⟨.inl rfl, rfl⟩
  case branchInit =>
    split at step
    · obtain rfl := Option.some.inj step
      exact ⟨.inl rfl, rfl⟩
    · obtain rfl := Option.some.inj step
      exact ⟨.inl rfl, rfl⟩
  case testStopping =>
    obtain rfl := Option.some.inj step
    refine ⟨.inl ?_, rfl⟩
    simp only
    split <;> rfl
  case testMotion =>
    obtain rfl := Option.some.inj step
    refine ⟨.inl ?_, rfl⟩
    simp only
    split <;> rfl
  case clrDispFlag =>
    obtain rfl := Option.some.inj step
    exact ⟨.inl rfl, by simp [control, queuedStep]⟩
  case count =>
    obtain rfl := Option.some.inj step
    exact ⟨.inr rfl, rfl⟩
  all_goals
    obtain rfl := Option.some.inj step
    exact ⟨.inl rfl, rfl⟩

theorem threadStep_moves (indices : Indices sys) (step : threadStep config sys = some sys') :
    Move (control sys) .thread (control sys') := by
  by_cases working : works sys.thread = true
  · exact threadStep_works working step
  cases thread : sys.thread <;> simp only [works, thread, not_true_eq_false] at working
  case dequeue => exact threadStep_dequeue indices thread step
  case dequeueAgain => exact threadStep_dequeueAgain indices thread step
  all_goals simp only [threadStep, thread, Option.some.injEq, reduceCtorEq] at step
  all_goals subst step
  case start => exact .starts (control sys) thread
  case lock => exact .locks (control sys) thread
  case setWaiting => exact .setsWaiting (control sys) thread
  case condWait => exact .sleeps (control sys) thread
  case unlock => exact .unlocks (control sys) thread
  case resetWaiting => exact .resetsWaiting (control sys) thread
  case uninit => exact .uninits (control sys) thread
  case stop => exact .stops (control sys) thread

theorem threadFailStep_moves (step : threadFailStep sys = some sys') :
    Move (control sys) .threadFails (control sys') := by
  cases thread : sys.thread <;>
    simp only [threadFailStep, thread, Option.some.injEq, reduceCtorEq] at step
  all_goals subst step
  case init => exact .fails (control sys) .gone (by simp [control, thread, works]) (.inr rfl)
  all_goals exact .fails (control sys) .uninit (by simp [control, thread, works]) (.inl rfl)

theorem sysStep_moves (indices : Indices sys) {act : Act}
    (step : sysStep config sys act = some sys') : Move (control sys) act (control sys') := by
  cases act with
  | put index interlaced => exact putStep_moves step
  | close => exact closeStep_moves step
  | main => exact mainStep_moves step
  | thread => exact threadStep_moves indices step
  | threadFails => exact threadFailStep_moves step

/-- A move takes buffers out of the queue or puts the index of a buffer in. -/
theorem Move.indices {c c' : Control} {act : Act} (move : Move c act c')
    (indices : ∀ index ∈ c.frames, 0 ≤ index) : ∀ index ∈ c'.frames, 0 ≤ index := by
  cases move with
  | queues index main room =>
      intro one mem
      rcases List.mem_append.mp mem with mem | mem
      · exact indices one mem
      · rw [List.mem_singleton.mp mem]
        omega
  | takes index rest thread frames =>
      intro one mem
      exact indices one (by rw [frames]; exact List.mem_cons_of_mem _ mem)
  | _ => exact indices

end Simulation

/-- The rule for what holds in a run of the system: an invariant of the shared data
that every move kept by the condition preserves. -/
theorem throughout_of_moves {config : Config} {inv : Control → Prop} {property : Sys → Prop}
    {meets : Control → Act → Prop} (implies : ∀ sys, inv (control sys) → property sys)
    (preserved : ∀ c act c', inv c → meets c act → Move c act c' → inv c')
    (acts : List Act) (list : Nat → Int) (start : inv (control (.start list)))
    (meet : StepsMeet (sysStep config) (fun sys act => meets (control sys) act) acts
      (.start list)) :
    Throughout (sysStep config) property acts (.start list) := by
  have rule := @throughout_of_stepsMeet Sys Act (sysStep config)
    (fun sys => Indices sys ∧ inv (control sys)) property (fun sys act => meets (control sys) act)
  refine rule ?_ ?_ acts (.start list) ⟨?_, start⟩ meet
  · rintro sys ⟨_, holds⟩
    exact implies sys holds
  · rintro sys act sys' ⟨indices, holds⟩ met step
    have move := sysStep_moves indices step
    exact ⟨move.indices indices, preserved _ act _ holds met move⟩
  · intro index mem
    rw [Sys.start, BufQueue.contents_empty] at mem
    cases mem

/-! ## The two flags -/

/-- `ipu_waiting` and `ipu_running` say where the thread is, in one direction: they
are set and reset a step before or after. -/
structure Flags (c : Control) : Prop where
  waiting : c.waiting = true →
    c.thread = .condWait ∨ c.thread = .asleep ∨ c.thread = .unlock ∨ c.thread = .resetWaiting
  running : c.running = false → c.thread = .start ∨ c.thread = .gone

theorem flags_start (list : Nat → Int) : Flags (control (.start list)) := by
  refine ⟨?_, fun _ => .inl rfl⟩
  intro waiting
  cases waiting

theorem works_unflagged {thread : ThreadPc} (working : works thread = true) :
    ¬ (thread = .condWait ∨ thread = .asleep ∨ thread = .unlock ∨ thread = .resetWaiting) ∧
      ¬ (thread = .start ∨ thread = .gone) := by
  cases thread <;> simp [works] at working ⊢

theorem Flags.wake {c : Control} (flags : Flags c) {main : MainPc} {signalled : Bool} :
    Flags { c with thread := wakeupQueue c.thread, signalled := signalled, main := main } := by
  refine ⟨?_, ?_⟩
  · intro waiting
    rcases flags.waiting waiting with thread | thread | thread | thread
    · exact .inl (by simp [wakeupQueue, thread])
    · exact .inr (.inr (.inl (by simp [wakeupQueue, thread])))
    · exact .inr (.inr (.inl (by simp [wakeupQueue, thread])))
    · exact .inr (.inr (.inr (by simp [wakeupQueue, thread])))
  · intro running
    rcases flags.running running with thread | thread
    · exact .inl (by simp [wakeupQueue, thread])
    · exact .inr (by simp [wakeupQueue, thread])

/-- In a place that neither flag speaks of, the thread may go anywhere. -/
theorem Flags.elsewhere {c c' : Control} (flags : Flags c) (waiting : c'.waiting = c.waiting)
    (running : c'.running = c.running)
    (unflagged : ¬ (c.thread = .condWait ∨ c.thread = .asleep ∨ c.thread = .unlock ∨
        c.thread = .resetWaiting) ∧ ¬ (c.thread = .start ∨ c.thread = .gone)) : Flags c' := by
  refine ⟨?_, ?_⟩
  · intro waits
    exact absurd (flags.waiting (waiting ▸ waits)) unflagged.1
  · intro stops
    exact absurd (flags.running (running ▸ stops)) unflagged.2

theorem Flags.move {c c' : Control} {act : Act} (flags : Flags c) (move : Move c act c') :
    Flags c' := by
  cases move with
  | signals main => exact flags.wake
  | closeSignals main => exact flags.wake
  | starts thread =>
      exact ⟨fun waits => absurd (flags.waiting waits) (by simp [thread]), nofun⟩
  | takes index rest thread frames =>
      rcases thread with thread | thread
      · exact flags.elsewhere rfl rfl (by simp [thread])
      · exact flags.elsewhere rfl rfl (by simp [thread])
  | falls thread empty => exact flags.elsewhere rfl rfl (by simp [thread])
  | locks thread => exact flags.elsewhere rfl rfl (by simp [thread])
  | setsWaiting thread =>
      exact ⟨fun _ => .inl rfl, fun stops => absurd (flags.running stops) (by simp [thread])⟩
  | sleeps thread =>
      exact ⟨fun _ => .inr (.inl rfl),
        fun stops => absurd (flags.running stops) (by simp [thread])⟩
  | unlocks thread =>
      exact ⟨fun _ => .inr (.inr (.inr rfl)),
        fun stops => absurd (flags.running stops) (by simp [thread])⟩
  | resetsWaiting thread =>
      exact ⟨nofun, fun stops => absurd (flags.running stops) (by simp [thread])⟩
  | ends thread empty => exact flags.elsewhere rfl rfl (by simp [thread])
  | works next thread goesOn => exact flags.elsewhere rfl rfl (works_unflagged thread)
  | uninits thread => exact flags.elsewhere rfl rfl (by simp [thread])
  | stops thread =>
      exact ⟨fun waits => absurd (flags.waiting waits) (by simp [thread]), fun _ => .inr rfl⟩
  | fails next thread leaves => exact flags.elsewhere rfl rfl (works_unflagged thread)
  | _ => exact ⟨flags.waiting, flags.running⟩

/-! ## Missed wake-ups -/

/-- The thread sleeps only while nothing waits for it: with `ipu_put_data` finished
the queue is empty, and `ipu_display_close` has not called for it. -/
def Awake (sys : Sys) : Prop :=
  sys.thread = .asleep → (∀ index, sys.main ≠ .putQueue index) → sys.main ≠ .putSignal →
    sys.display.ipuQ.contents = [] ∧ sys.signalled = false

/-- No `wakeup_queue` comes while the thread is on its way from an empty queue into
`pthread_cond_wait`, and `ipu_display_close` does not look at `ipu_running` before
the thread has set it. -/
def WakesInTime (c : Control) (act : Act) : Prop :=
  act = .main →
    (c.main = .putSignal ∨ c.main = .closeSignal → falling c.thread = false) ∧
      (c.main = .pollRunning → c.thread ≠ .start)

instance (c : Control) (act : Act) : Decidable (WakesInTime c act) :=
  inferInstanceAs (Decidable (_ → _))

def polled : MainPc → Bool
  | .pollSize | .pollWaiting | .testRunning | .closeSignal | .join => true
  | _ => false

def leftLoop : MainPc → Bool
  | .testRunning | .closeSignal | .join => true
  | _ => false

/-- The thread will not look into the queue any more, or only once. -/
def nearEnd (thread : ThreadPc) : Prop :=
  thread = .condWait ∨ thread = .asleep ∨ woken thread = true ∨ finished thread = true

structure Wakes (c : Control) : Prop where
  flags : Flags c
  empty : falling c.thread = true ∨ c.thread = .asleep → c.main ≠ .putSignal → c.frames = []
  started : polled c.main = true → c.thread ≠ .start
  size : c.main = .pollWaiting → c.frames = []
  left : leftLoop c.main = true → c.thread = .gone ∨ c.frames = [] ∧ nearEnd c.thread
  heard : c.signalled = true →
    c.thread = .gone ∨ c.main = .join ∧ c.thread ≠ .condWait ∧ c.thread ≠ .asleep

theorem wakes_start (list : Nat → Int) : Wakes (control (.start list)) := by
  refine ⟨flags_start list, ?_, ?_, ?_, ?_, ?_⟩ <;> simp [control, Sys.start, falling, polled,
    leftLoop]

section Wakes
variable {c c' : Control} {act : Act}

/-- The queue fills only while a signal is to come, and that signal finds the thread
asleep or awake. -/
theorem Wakes.empty_move (wakes : Wakes c) (inTime : WakesInTime c act) (move : Move c act c') :
    falling c'.thread = true ∨ c'.thread = .asleep → c'.main ≠ .putSignal → c'.frames = [] := by
  have empty := wakes.empty
  cases move with
  | signals main =>
      have caught := (inTime rfl).1 (.inl main)
      grind [wakeupQueue, falling]
  | closeSignals main => grind [wakeupQueue, falling]
  | _ => grind -ring -linarith -lia [falling]

/-- `ipu_display_close` leaves its loop with the thread gone, or with nothing left for
the thread to do. -/
theorem Wakes.left_move (wakes : Wakes c) (inTime : WakesInTime c act) (move : Move c act c') :
    leftLoop c'.main = true → c'.thread = .gone ∨ c'.frames = [] ∧ nearEnd c'.thread := by
  have left := wakes.left
  have size := wakes.size
  have waiting := wakes.flags.waiting
  have running := wakes.flags.running
  cases move with
  | pollsRunning main =>
      have started := (inTime rfl).2 main
      grind [leftLoop]
  | pollsWaiting main => grind [leftLoop, nearEnd, woken]
  | _ => grind -ring -linarith -lia [leftLoop, nearEnd, falling, woken, finished, wakeupQueue]

theorem Wakes.heard_move (wakes : Wakes c) (inTime : WakesInTime c act) (move : Move c act c') :
    c'.signalled = true →
      c'.thread = .gone ∨ c'.main = .join ∧ c'.thread ≠ .condWait ∧ c'.thread ≠ .asleep := by
  have heard := wakes.heard
  have left := wakes.left
  cases move with
  | closeSignals main =>
      have caught := (inTime rfl).1 (.inr main)
      grind [wakeupQueue, falling]
  | setsWaiting thread => grind [leftLoop, nearEnd, woken, finished]
  | _ => grind -ring -linarith -lia [wakeupQueue, falling, finished]

theorem Wakes.move (wakes : Wakes c) (inTime : WakesInTime c act) (move : Move c act c') :
    Wakes c' where
  flags := wakes.flags.move move
  empty := wakes.empty_move inTime move
  started := by
    have started := wakes.started
    cases move with
    | pollsRunning main =>
        have here := (inTime rfl).2 main
        grind
    | _ => grind -ring -linarith -lia [polled, wakeupQueue, falling]
  size := by
    have size := wakes.size
    cases move with
    | _ => grind -ring -linarith -lia
  left := wakes.left_move inTime move
  heard := wakes.heard_move inTime move

end Wakes

/-- In every run whose wake-ups come in time, the thread never sleeps through a frame
or through the end. -/
theorem ipu_wakes (config : Config) (list : Nat → Int) (acts : List Act)
    (inTime : StepsMeet (sysStep config) (fun sys act => WakesInTime (control sys) act) acts
      (.start list)) :
    Throughout (sysStep config) Awake acts (.start list) := by
  refine throughout_of_moves ?_ (fun c act c' => Wakes.move) acts list (wakes_start list) inTime
  intro sys wakes asleep _ signals
  refine ⟨wakes.empty (.inr asleep) signals, ?_⟩
  cases told : sys.signalled with
  | false => rfl
  | true =>
      rcases wakes.heard told with gone | ⟨_, _, awake⟩
      · exact absurd (asleep.symm.trans gone) (by decide)
      · exact absurd asleep awake

/-- The thread goes to sleep, is woken for buffer 3, sleeps again, and is woken to
end. -/
theorem ipu_wakes_once :
    let acts : List Act :=
      List.replicate 5 Act.thread ++ [.put 3 false, .main, .main] ++ List.replicate 10 Act.thread ++
        [.close] ++ List.replicate 6 Act.main ++ List.replicate 5 Act.thread
    (runEvents (sysStep ⟨.med, false⟩) acts (.start fun _ => 0)).map (·.thread) = some .gone ∧
      Throughout (sysStep ⟨.med, false⟩) Awake acts (.start fun _ => 0) :=
  ⟨by decide +kernel, ipu_wakes ⟨.med, false⟩ (fun _ => 0) _ (by decide +kernel)⟩

/-- The thread finds the queue empty, buffer 3 is queued and signalled, and then the
thread goes to sleep. -/
theorem ipu_sleeps_through_frame :
    let acts : List Act := [.thread, .thread, .put 3 false, .main, .main, .thread, .thread, .thread]
    ∃ sys : Sys, runEvents (sysStep ⟨.med, false⟩) acts (.start fun _ => 0) = some sys ∧
      sys.thread = .asleep ∧ sys.main = .ready ∧ sys.display.ipuQ.contents = [3] ∧ ¬ Awake sys := by
  intro acts
  have reached : (runEvents (sysStep ⟨.med, false⟩) acts (.start fun _ => 0)).map
      (fun sys => (sys.thread, sys.main, sys.display.ipuQ.contents)) =
      some (.asleep, .ready, [3]) := by
    decide +kernel
  obtain ⟨sys, run, fields⟩ := Option.map_eq_some_iff.mp reached
  obtain ⟨asleep, ready, frames⟩ : sys.thread = .asleep ∧ sys.main = .ready ∧
      sys.display.ipuQ.contents = [3] := by
    simpa using fields
  refine ⟨sys, run, asleep, ready, frames, ?_⟩
  intro awake
  obtain ⟨empty, _⟩ := awake asleep (by simp [ready]) (by simp [ready])
  rw [frames] at empty
  cases empty

/-! ## The end of the thread -/

/-- The thread has left its loop only if `ipu_display_close` has called for it, and
then nothing that was put is left. -/
def StopsWhenTold (sys : Sys) : Prop :=
  finished sys.thread = true → sys.signalled = true ∧ queued sys.log = []

def queueing : MainPc → Bool
  | .putQueue _ => true
  | _ => false

/-- `ipu_put_data` does not signal a thread that sleeps before an empty queue, having
taken the buffer already, and does not meet a full queue. -/
def SignalsInTime (c : Control) (act : Act) : Prop :=
  act = .main →
    (c.main = .putSignal → ¬ (c.thread = .asleep ∧ c.frames = [])) ∧
      (queueing c.main = true → c.frames.length < maxBufNum)

instance (c : Control) (act : Act) : Decidable (SignalsInTime c act) :=
  inferInstanceAs (Decidable (_ → _))

/-- `ipu_display_close` has called `wakeup_queue` or has no need to. -/
def behindSignal : MainPc → Bool
  | .join | .destroyMutex | .destroyCond | .free | .closed => true
  | _ => false

structure Told (c : Control) : Prop where
  same : c.put = c.frames
  woken : woken c.thread = true → c.signalled = false → c.frames ≠ []
  finished : finished c.thread = true → c.signalled = true ∧ c.frames = []
  behind : c.signalled = true → behindSignal c.main = true

theorem told_start (list : Nat → Int) : Told (control (.start list)) := by
  refine ⟨?_, ?_, ?_, ?_⟩ <;>
    simp [control, Sys.start, queued, BufQueue.contents_empty, woken, finished]

section Told
variable {c c' : Control} {act : Act}

theorem Told.same_move (told : Told c) (inTime : SignalsInTime c act) (move : Move c act c') :
    c'.put = c'.frames := by
  have same := told.same
  cases move with
  | queues index main room => simp only [same]
  | drops index main full => exact absurd ((inTime rfl).2 (by rw [main]; rfl)) full
  | takes index rest thread frames => simp only [same, frames, List.erase_cons_head]
  | _ => exact same

/-- A thread that is woken finds a frame, unless it is woken to end. -/
theorem Told.woken_move (told : Told c) (inTime : SignalsInTime c act) (move : Move c act c') :
    IpuControl.woken c'.thread = true → c'.signalled = false → c'.frames ≠ [] := by
  have awake := told.woken
  cases move with
  | queues index main room =>
      intro _ _
      exact List.append_ne_nil_of_right_ne_nil _ (List.cons_ne_nil _ _)
  | signals main =>
      have waits := (inTime rfl).1 main
      grind [wakeupQueue]
  | closeSignals main => grind
  | _ => grind -ring -linarith -lia [IpuControl.woken]

theorem Told.finished_move (told : Told c) (succeeds : act ≠ .threadFails) (move : Move c act c') :
    IpuControl.finished c'.thread = true → c'.signalled = true ∧ c'.frames = [] := by
  have ended := told.finished
  have behind := told.behind
  cases move with
  | queues index main room => grind [behindSignal]
  | ends thread empty =>
      have frame := told.woken (by rw [thread]; rfl)
      grind
  | fails next thread leaves => exact absurd rfl succeeds
  | signals main => grind [wakeupQueue, IpuControl.finished]
  | closeSignals main => grind [wakeupQueue, IpuControl.finished]
  | _ => grind -ring -linarith -lia [IpuControl.finished]

theorem Told.move (told : Told c) (met : SignalsInTime c act ∧ act ≠ .threadFails)
    (move : Move c act c') : Told c' where
  same := told.same_move met.1 move
  woken := told.woken_move met.1 move
  finished := told.finished_move met.2 move
  behind := by
    have behind := told.behind
    cases move with
    | _ => grind -ring -linarith -lia [behindSignal]

end Told

/-- In every run without a late signal, the thread ends only when told to, and has
taken every frame by then. -/
theorem ipu_stops_when_told (config : Config) (list : Nat → Int) (acts : List Act)
    (succeeds : ∀ act ∈ acts, act ≠ .threadFails)
    (inTime : StepsMeet (sysStep config) (fun sys act => SignalsInTime (control sys) act) acts
      (.start list)) :
    Throughout (sysStep config) StopsWhenTold acts (.start list) := by
  refine throughout_of_moves ?_ (fun c act c' => Told.move) acts list (told_start list)
    (inTime.and_mem succeeds)
  intro sys told ended
  obtain ⟨signalled, empty⟩ := told.finished ended
  exact ⟨signalled, told.same.trans empty⟩

/-- Buffers 3 and 4 are put, and the thread takes both, sleeps and is told to end. -/
theorem ipu_stops_when_told_two :
    let acts : List Act :=
      [.put 3 false, .main, .main, .put 4 false, .main, .main] ++ List.replicate 19 Act.thread ++
        [.close] ++ List.replicate 6 Act.main ++ List.replicate 5 Act.thread
    (runEvents (sysStep ⟨.med, false⟩) acts (.start fun _ => 0)).map (·.thread) = some .gone ∧
      Throughout (sysStep ⟨.med, false⟩) StopsWhenTold acts (.start fun _ => 0) :=
  ⟨by decide +kernel,
    ipu_stops_when_told ⟨.med, false⟩ (fun _ => 0) _ (by decide) (by decide +kernel)⟩

/-- Buffer 3 is queued, taken and shown, the thread sleeps, and the signal for buffer 3
wakes it before an empty queue. -/
theorem ipu_stops_untold :
    let acts : List Act := [.put 3 false, .main] ++ List.replicate 9 Act.thread ++ [.main] ++
      List.replicate 3 Act.thread
    ∃ sys : Sys, runEvents (sysStep ⟨.med, false⟩) acts (.start fun _ => 0) = some sys ∧
      sys.thread = .uninit ∧ sys.main = .ready ∧ ¬ StopsWhenTold sys := by
  intro acts
  have reached : (runEvents (sysStep ⟨.med, false⟩) acts (.start fun _ => 0)).map
      (fun sys => (sys.thread, sys.main, sys.signalled)) = some (.uninit, .ready, false) := by
    decide +kernel
  obtain ⟨sys, run, fields⟩ := Option.map_eq_some_iff.mp reached
  obtain ⟨ended, ready, untold⟩ : sys.thread = .uninit ∧ sys.main = .ready ∧
      sys.signalled = false := by
    simpa using fields
  refine ⟨sys, run, ended, ready, ?_⟩
  intro stops
  have told := (stops (by rw [ended]; rfl)).1
  rw [untold] at told
  cases told

/-! ## The end of the display -/

/-- The step that the thread makes next uses `disp`, `ipu_mutex` or `ipu_cond`. -/
def accesses : ThreadPc → Bool
  | .start | .setWaiting | .resetWaiting | .stop | .gone => false
  | _ => true

def destroyed : MainPc → Bool
  | .destroyCond | .free | .closed => true
  | _ => false

/-- Nothing that `ipu_display_close` took away is used. -/
def FreedUnused (sys : Sys) : Prop := destroyed sys.main = true → accesses sys.thread = false

/-- When `ipu_display_close` decides whether to join the thread, the thread has set
`ipu_running`. -/
def JoinsStarted (c : Control) (act : Act) : Prop :=
  act = .main → c.main = .testRunning → c.thread ≠ .start

instance (c : Control) (act : Act) : Decidable (JoinsStarted c act) :=
  inferInstanceAs (Decidable (_ → _))

structure Joined (c : Control) : Prop where
  flags : Flags c
  gone : c.main = .destroyMutex ∨ destroyed c.main = true → c.thread = .gone

theorem Joined.move {c c' : Control} {act : Act} (joined : Joined c)
    (started : JoinsStarted c act) (move : Move c act c') : Joined c' := by
  refine ⟨joined.flags.move move, ?_⟩
  have gone := joined.gone
  have running := joined.flags.running
  cases move with
  | testsRunning main =>
      have here := started rfl main
      grind [destroyed]
  | _ => grind -ring -linarith -lia [destroyed, wakeupQueue, finished]

/-- In every run in which the thread has started by the time of the test, the display
is freed behind the thread. -/
theorem ipu_freed_unused (config : Config) (list : Nat → Int) (acts : List Act)
    (started : StepsMeet (sysStep config) (fun sys act => JoinsStarted (control sys) act) acts
      (.start list)) :
    Throughout (sysStep config) FreedUnused acts (.start list) := by
  refine throughout_of_moves ?_ (fun c act c' => Joined.move) acts list
    ⟨flags_start list, ?_⟩ started
  · intro sys joined freed
    have gone : sys.thread = .gone := joined.gone (.inr freed)
    rw [gone]
    rfl
  · rintro (main | main) <;> cases main

/-- The thread is told to end and joined. -/
theorem ipu_freed_unused_joined :
    let acts : List Act :=
      List.replicate 5 Act.thread ++ [.close] ++ List.replicate 6 Act.main ++
        List.replicate 5 Act.thread ++ List.replicate 4 Act.main
    (runEvents (sysStep ⟨.med, false⟩) acts (.start fun _ => 0)).map (·.main) = some .closed ∧
      Throughout (sysStep ⟨.med, false⟩) FreedUnused acts (.start fun _ => 0) :=
  ⟨by decide +kernel, ipu_freed_unused ⟨.med, false⟩ (fun _ => 0) _ (by decide +kernel)⟩

/-- The display is closed before the new thread has done anything: then the thread
starts and looks into the queue of a display that is freed. -/
theorem ipu_uses_freed :
    let acts : List Act := [.close] ++ List.replicate 6 Act.main ++ [Act.thread]
    ∃ sys : Sys, runEvents (sysStep ⟨.med, false⟩) acts (.start fun _ => 0) = some sys ∧
      sys.main = .closed ∧ sys.thread = .dequeue ∧ ¬ FreedUnused sys := by
  intro acts
  have reached : (runEvents (sysStep ⟨.med, false⟩) acts (.start fun _ => 0)).map
      (fun sys => (sys.main, sys.thread)) = some (.closed, .dequeue) := by
    decide +kernel
  obtain ⟨sys, run, fields⟩ := Option.map_eq_some_iff.mp reached
  obtain ⟨closed, looks⟩ := Prod.mk.inj fields
  refine ⟨sys, run, closed, looks, ?_⟩
  intro unused
  have idle := unused (by rw [closed]; rfl)
  rw [looks] at idle
  cases idle

end ImxTest.Vpu.IpuControl
