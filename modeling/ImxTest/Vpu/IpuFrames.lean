import ImxTest.Vpu.IpuControl

/-!
# Which buffers the IPU display thread gives back

The thread clears the display flag of the buffer before the one in hand, or, for
low and medium motion de-interlacing, of the one before that, which it finds in
`tmp_idx`.  Which of the two it does depends on `deinterlaced`, and `ipu_put_data`
sets that with the first interlaced picture.  `tmp_idx` is filled only while the
flag is set, so the switch is right only if it comes before the thread looks at the
flag for its second frame.
-/

set_option autoImplicit false

namespace ImxTest.Vpu.IpuFrames

open ImxTest.Lib.Run
open ImxTest.Vpu.Ownership
open ImxTest.Vpu.IpuDisplay
open ImxTest.Vpu.IpuControl

/-! ## The buffers that the thread holds -/

def heldStep (held : List Int) : Op → List Int
  | .dqbuf index => held ++ [index]
  | .clrDispFlag index => held.erase index
  | _ => held

/-- The buffers taken out of the queue and not cleared since, oldest first. -/
def held (log : List Op) : List Int := log.foldl heldStep []

@[simp]
theorem held_snoc (log : List Op) (op : Op) : held (log ++ [op]) = heldStep (held log) op := by
  simp [held]

/-- How many of the newest frames the IPU still needs: two to deinterlace with little or
medium motion. -/
def needed (config : Config) (display : Display) : Nat :=
  match display.deinterlaced, config.motion with
  | true, .low | true, .med => 2
  | _, _ => 1

theorem needed_eq (config : Config) (display : Display) :
    needed config display = if lowMotion config display then 2 else 1 := by
  unfold needed lowMotion
  cases display.deinterlaced <;> cases config.motion <;> rfl

/-- The thread gives back the oldest buffer it holds, once and only when the IPU has
enough newer ones, and does not fall behind. -/
structure ReturnsOnce (config : Config) (sys : Sys) : Prop where
  clears : sys.thread = .clrDispFlag →
    (held sys.log).head? = some sys.regs.dispClrIndex ∧
      needed config sys.display < (held sys.log).length
  bounded : (held sys.log).length ≤ needed config sys.display + 1

/-- The thread has not looked at `deinterlaced` for a frame yet. -/
def beforeBranch : ThreadPc → Bool
  | .start | .dequeue | .lock | .setWaiting | .condWait | .asleep => true
  | .unlock | .resetWaiting | .dequeueAgain | .branch => true
  | _ => false

/-- An interlaced picture is put while the flag is set already, or with high motion,
or before the thread looks at the flag for its second frame. -/
def SetsEarly (config : Config) (sys : Sys) : Act → Prop
  | .put _ true =>
      config.motion = .high ∨ sys.display.deinterlaced = true ∨ sys.display.ncount = 0 ∨
        sys.display.ncount = 1 ∧ beforeBranch sys.thread = true
  | _ => True

instance (config : Config) (sys : Sys) : ∀ act, Decidable (SetsEarly config sys act)
  | .put _ true => inferInstanceAs (Decidable (_ ∨ _))
  | .put _ false => .isTrue trivial
  | .close => .isTrue trivial
  | .main => .isTrue trivial
  | .thread => .isTrue trivial
  | .threadFails => .isTrue trivial

/-! ## The history in `tmp_idx` -/

/-- Between two frames: how many were shown, the last of them, and what is held. -/
inductive Rest (low : Bool) (regs : Regs) : Nat → Int → List Int → Prop where
  | none : Rest low regs 0 (-1) []
  | first (last : Int) (tmp0 : regs.tmp0 = last) : Rest low regs 1 last [last]
  | progressive (ncount : Nat) (last : Int) (plain : low = false) (more : 2 ≤ ncount) :
      Rest low regs ncount last [last]
  | second (older last : Int) (motion : low = true) (tmp0 : regs.tmp0 = older)
      (tmp1 : regs.tmp1 = last) : Rest low regs 2 last [older, last]
  | later (ncount : Nat) (older last : Int) (motion : low = true) (tmp1 : regs.tmp1 = older)
      (tmp2 : regs.tmp2 = last) (more : 3 ≤ ncount) : Rest low regs ncount last [older, last]

def InHand (low : Bool) (regs : Regs) (ncount : Nat) (held : List Int) : Prop :=
  ∃ last before, regs.dispClrIndex = last ∧ Rest low regs ncount last before ∧
    held = before ++ [regs.index]

/-- With the frame shown: which buffer is due. -/
inductive Due (low : Bool) (regs : Regs) : Nat → List Int → Prop where
  | first (clr : regs.dispClrIndex = -1) (tmp0 : regs.tmp0 = regs.index) :
      Due low regs 0 [regs.index]
  | second (motion : low = true) (tmp0 : regs.tmp0 = regs.dispClrIndex)
      (tmp1 : regs.tmp1 = regs.index) : Due low regs 1 [regs.dispClrIndex, regs.index]
  | progressive (ncount : Nat) (plain : low = false) (more : 1 ≤ ncount) :
      Due low regs ncount [regs.dispClrIndex, regs.index]
  | later (ncount : Nat) (last : Int) (motion : low = true) (tmp1 : regs.tmp1 = last)
      (tmp2 : regs.tmp2 = regs.index) (more : 2 ≤ ncount) :
      Due low regs ncount [regs.dispClrIndex, last, regs.index]

def History (low : Bool) (regs : Regs) (ncount : Nat) (held : List Int) : ThreadPc → Prop
  | .start | .dequeue => Rest low regs ncount regs.index held
  | .lock | .setWaiting | .condWait | .asleep | .unlock | .resetWaiting | .dequeueAgain =>
      Rest low regs ncount regs.dispClrIndex held
  | .branch => InHand low regs ncount held
  | .branchInit => InHand low regs ncount held ∧ ncount ≠ 0 ∧ ¬ (low = true ∧ ncount = 1)
  | .init | .initUpdate | .initShift =>
      InHand low regs ncount held ∧ (low = false ∧ ncount = 1 ∨ low = true ∧ ncount = 2)
  | .update | .updateShift =>
      InHand low regs ncount held ∧ (low = false ∧ 2 ≤ ncount ∨ low = true ∧ 3 ≤ ncount)
  | .testStopping => Due low regs ncount held
  | .testMotion => Due low regs ncount held ∧ 0 ≤ regs.dispClrIndex
  | .clrDispFlag =>
      Due low regs ncount held ∧ 0 ≤ regs.dispClrIndex ∧ ¬ (low = true ∧ ncount < 2)
  | .count => Rest low regs (ncount + 1) regs.index held
  | .uninit | .stop | .gone => held.length ≤ 2

/-- `ipu_display_close` is not called. -/
def inPut : MainPc → Bool
  | .ready | .putQueue _ | .putSignal => true
  | _ => false

structure Frames (config : Config) (sys : Sys) : Prop where
  indices : Indices sys
  nonneg : ∀ index ∈ held sys.log, 0 ≤ index
  main : inPut sys.main = true
  stopping : sys.display.stopping = false
  history : History (lowMotion config sys.display) sys.regs sys.display.ncount (held sys.log)
    sys.thread

section Steps
variable {low : Bool} {regs : Regs} {ncount : Nat} {last : Int} {holds : List Int}

theorem Rest.length (rest : Rest low regs ncount last holds) :
    holds.length ≤ if low then 2 else 1 := by
  cases rest with
  | none => simp
  | first => split <;> simp
  | progressive _ _ plain => simp [plain]
  | second _ _ motion => simp [motion]
  | later _ _ _ motion => simp [motion]

theorem Rest.of_tmp {regs' : Regs} (rest : Rest low regs ncount last holds)
    (tmp0 : regs'.tmp0 = regs.tmp0) (tmp1 : regs'.tmp1 = regs.tmp1)
    (tmp2 : regs'.tmp2 = regs.tmp2) : Rest low regs' ncount last holds := by
  cases rest with
  | none => exact .none
  | first _ same => exact .first _ (tmp0.trans same)
  | progressive _ _ plain more => exact .progressive _ _ plain more
  | second _ _ motion older same => exact .second _ _ motion (tmp0.trans older) (tmp1.trans same)
  | later _ _ _ motion older same more =>
      exact .later _ _ _ motion (tmp1.trans older) (tmp2.trans same) more

theorem InHand.length (hand : InHand low regs ncount holds) :
    holds.length ≤ (if low then 2 else 1) + 1 := by
  obtain ⟨last, before, _, rest, rfl⟩ := hand
  have := rest.length
  simp only [List.length_append, List.length_singleton]
  omega

theorem Due.length (due : Due low regs ncount holds) :
    holds.length ≤ (if low then 2 else 1) + 1 := by
  cases due with
  | first => simp
  | second => split <;> simp
  | progressive => split <;> simp
  | later _ _ motion => simp [motion]

theorem History.length {thread : ThreadPc} (history : History low regs ncount holds thread) :
    holds.length ≤ (if low then 2 else 1) + 1 := by
  have rests : ∀ {ncount last}, Rest low regs ncount last holds →
      holds.length ≤ (if low then 2 else 1) + 1 := fun rest => Nat.le_succ_of_le rest.length
  cases thread
  case branch => exact InHand.length history
  case branchInit | init | initUpdate | initShift | update | updateShift => exact history.1.length
  case testStopping => exact Due.length history
  case testMotion | clrDispFlag => exact history.1.length
  case uninit | stop | gone => exact Nat.le_trans history (by split <;> decide)
  all_goals exact rests history

/-- The first frame is in hand: nothing is due. -/
theorem due_first (hand : InHand low regs 0 holds) :
    Due low { regs with tmp0 := regs.index } 0 holds := by
  obtain ⟨last, before, clr, rest, rfl⟩ := hand
  cases rest with
  | none => exact .first clr rfl
  | progressive _ _ _ more => omega
  | later _ _ _ _ _ _ more => omega

/-- The second frame of an interlaced picture: it takes two before one is due. -/
theorem due_second (hand : InHand true regs 1 holds) :
    Due true { regs with tmp1 := regs.index } 1 holds := by
  obtain ⟨last, before, clr, rest, rfl⟩ := hand
  cases rest with
  | first _ tmp0 =>
      rw [← clr]
      exact .second rfl (tmp0.trans clr.symm) rfl
  | progressive _ _ plain => cases plain
  | later _ _ _ _ _ _ more => omega

theorem due_init (hand : InHand low regs ncount holds)
    (which : low = false ∧ ncount = 1 ∨ low = true ∧ ncount = 2) :
    Due low
      { regs with
        tmp2 := regs.index
        dispClrIndex := if low then regs.tmp0 else regs.dispClrIndex } ncount holds := by
  obtain ⟨last, before, clr, rest, rfl⟩ := hand
  obtain ⟨rfl, rfl⟩ | ⟨rfl, rfl⟩ := which
  · cases rest with
    | first _ tmp0 =>
        rw [← clr]
        exact .progressive 1 rfl (by decide)
    | progressive _ _ _ more => omega
    | later _ _ _ motion => cases motion
  · cases rest with
    | progressive _ _ plain => cases plain
    | second older _ _ tmp0 tmp1 =>
        rw [← tmp0]
        exact .later 2 last rfl tmp1 rfl (by decide)
    | later _ _ _ _ _ _ more => omega

/-- A frame for the running IPU task: with low motion the history moves on. -/
theorem due_update (hand : InHand low regs ncount holds)
    (which : low = false ∧ 2 ≤ ncount ∨ low = true ∧ 3 ≤ ncount) :
    Due low
      (if low then
        { regs with
          tmp0 := regs.tmp1
          tmp1 := regs.tmp2
          tmp2 := regs.index
          dispClrIndex := regs.tmp1 }
      else regs) ncount holds := by
  obtain ⟨last, before, clr, rest, rfl⟩ := hand
  obtain ⟨rfl, more⟩ | ⟨rfl, more⟩ := which
  · cases rest with
    | none => omega
    | first => omega
    | progressive _ _ _ _ =>
        rw [← clr]
        exact .progressive ncount rfl (by omega)
    | second _ _ motion => cases motion
    | later _ _ _ motion => cases motion
  · cases rest with
    | none => omega
    | first => omega
    | progressive _ _ plain => cases plain
    | second => omega
    | later _ older _ _ tmp1 tmp2 _ =>
        rw [← tmp1]
        exact .later ncount last rfl tmp2 rfl (by omega)

/-- The frame is finished without clearing: the first one, or the second one of an
interlaced picture. -/
theorem rest_skipped (due : Due low regs ncount holds) (nonneg : ∀ index ∈ holds, 0 ≤ index)
    (skipped : regs.dispClrIndex < 0 ∨ low = true ∧ ncount < 2) :
    Rest low regs (ncount + 1) regs.index holds := by
  cases due with
  | first clr tmp0 => exact .first _ tmp0
  | second motion tmp0 tmp1 => exact .second _ _ motion tmp0 tmp1
  | progressive _ plain more =>
      have := nonneg regs.dispClrIndex (by simp)
      rcases skipped with negative | ⟨motion, _⟩
      · omega
      · rw [plain] at motion
        cases motion
  | later _ last motion tmp1 tmp2 more =>
      have := nonneg regs.dispClrIndex (by simp)
      omega

theorem rest_cleared (due : Due low regs ncount holds) (clears : 0 ≤ regs.dispClrIndex)
    (enough : ¬ (low = true ∧ ncount < 2)) :
    holds.head? = some regs.dispClrIndex ∧ (if low then 2 else 1) < holds.length ∧
      Rest low regs (ncount + 1) regs.index (holds.erase regs.dispClrIndex) := by
  cases due with
  | first clr tmp0 => omega
  | second motion tmp0 tmp1 => exact absurd ⟨motion, by decide⟩ enough
  | progressive _ plain more =>
      refine ⟨rfl, by simp [plain], ?_⟩
      rw [List.erase_cons_head]
      exact .progressive _ _ plain (by omega)
  | later _ last motion tmp1 tmp2 more =>
      refine ⟨rfl, by simp [motion], ?_⟩
      rw [List.erase_cons_head]
      exact .later _ _ _ motion tmp1 tmp2 (by omega)

theorem Rest.set (rest : Rest false regs ncount last holds) (few : ncount ≤ 1) :
    Rest true regs ncount last holds := by
  cases rest with
  | none => exact .none
  | first _ tmp0 => exact .first _ tmp0
  | progressive _ _ _ more => omega
  | second _ _ motion => cases motion
  | later _ _ _ motion => cases motion

theorem InHand.set (hand : InHand false regs ncount holds) (few : ncount ≤ 1) :
    InHand true regs ncount holds := by
  obtain ⟨last, before, clr, rest, same⟩ := hand
  exact ⟨last, before, clr, rest.set few, same⟩

theorem Due.set (due : Due false regs 0 holds) : Due true regs 0 holds := by
  cases due with
  | first clr tmp0 => exact .first clr tmp0
  | progressive _ _ more => omega
  | later _ _ motion => cases motion

/-- The flag may be set before the thread looks at it for its second frame. -/
theorem History.set {thread : ThreadPc} (history : History false regs ncount holds thread)
    (early : ncount = 0 ∨ ncount = 1 ∧ beforeBranch thread = true) :
    History true regs ncount holds thread := by
  have few : ncount ≤ 1 := by omega
  by_cases before : beforeBranch thread = true
  · cases thread <;> simp only [beforeBranch, Bool.false_eq_true] at before
    case branch => exact InHand.set history few
    all_goals exact Rest.set history few
  · obtain rfl : ncount = 0 := early.resolve_right fun second => before second.2
    cases thread <;> simp only [beforeBranch, not_true_eq_false] at before
    case testStopping => exact Due.set history
    case testMotion => exact ⟨Due.set history.1, history.2⟩
    case clrDispFlag =>
      -- nothing is due with the first frame
      obtain ⟨due, clears, _⟩ := history
      cases due with
      | first clr => omega
      | progressive _ _ more => omega
      | later _ _ motion => cases motion
    case count => exact Rest.set history (by decide)
    case branchInit => exact absurd rfl history.2.1
    case init | initUpdate | initShift | update | updateShift =>
      have := history.2
      omega
    all_goals exact history

end Steps

/-! ## Every interleaving -/

section Every
variable {config : Config} {sys sys' : Sys}

theorem Frames.returnsOnce (frames : Frames config sys) : ReturnsOnce config sys := by
  refine ⟨?_, needed_eq config sys.display ▸ frames.history.length⟩
  intro clears
  rw [needed_eq]
  have history := frames.history
  rw [clears] at history
  obtain ⟨due, nonneg, enough⟩ := history
  obtain ⟨oldest, more, _⟩ := rest_cleared due nonneg enough
  exact ⟨oldest, more⟩

/-- `ipu_put_data` leaves the thread's view of the picture alone or switches it on. -/
theorem lowMotion_put (config : Config) (display : Display) (interlaced : Bool) :
    let after := lowMotion config
      { display with deinterlaced := display.deinterlaced || interlaced }
    after = lowMotion config display ∨
      after = true ∧ lowMotion config display = false ∧ interlaced = true ∧
        config.motion ≠ .high ∧ display.deinterlaced = false := by
  simp only [lowMotion]
  cases display.deinterlaced <;> cases interlaced <;> cases config.motion <;> simp

theorem Frames.put {index : Nat} {interlaced : Bool} (frames : Frames config sys)
    (early : SetsEarly config sys (.put index interlaced))
    (step : putStep sys index interlaced = some sys') : Frames config sys' := by
  unfold putStep at step
  split at step
  · obtain rfl := Option.some.inj step
    refine ⟨frames.indices, frames.nonneg, rfl, frames.stopping, ?_⟩
    have history := frames.history
    obtain same | ⟨on, off, rfl, motion, unset⟩ := lowMotion_put config sys.display interlaced
    · rw [← same] at history
      exact history
    · rw [off] at history
      obtain high | set | first := early
      · exact absurd high motion
      · rw [unset] at set
        cases set
      · have switched := history.set first
        rw [← on] at switched
        exact switched
  · cases step

theorem Frames.mainStep (frames : Frames config sys) (step : mainStep sys = some sys') :
    Frames config sys' := by
  have inPut := frames.main
  cases main : sys.main <;> simp only [main, IpuFrames.inPut, Bool.false_eq_true] at inPut
  case ready => simp [IpuDisplay.mainStep, main] at step
  case putQueue index =>
    have indices := (mainStep_moves step).indices frames.indices
    simp only [IpuDisplay.mainStep, main, Option.some.injEq] at step
    subst step
    have same : held (sys.log ++ [.qbuf index]) = held sys.log := held_snoc ..
    refine ⟨indices, ?_, rfl, frames.stopping, ?_⟩
    · rw [same]
      exact frames.nonneg
    · rw [same]
      exact frames.history
  case putSignal =>
    simp only [IpuDisplay.mainStep, main, Option.some.injEq] at step
    subst step
    refine ⟨frames.indices, frames.nonneg, rfl, frames.stopping, ?_⟩
    have history := frames.history
    simp only [wakeupQueue]
    split
    · rename_i asleep
      rw [asleep] at history
      exact history
    · exact history

theorem Frames.takes {index : Int} (regs : Regs) (frames : Frames config sys)
    (indices : Indices sys') (nonneg : 0 ≤ index)
    (rest : Rest (lowMotion config sys.display) regs sys.display.ncount regs.dispClrIndex
      (held sys.log))
    (display : sys'.display = { sys.display with ipuQ := sys'.display.ipuQ })
    (main : sys'.main = sys.main) (thread : sys'.thread = .branch)
    (taken : sys'.regs = { regs with index := index })
    (log : sys'.log = sys.log ++ [.dqbuf index]) : Frames config sys' := by
  have grown : held sys'.log = held sys.log ++ [index] := by rw [log, held_snoc, heldStep]
  refine ⟨indices, ?_, by rw [main]; exact frames.main, by rw [display]; exact frames.stopping, ?_⟩
  · intro one mem
    rw [grown] at mem
    rcases List.mem_append.mp mem with mem | mem
    · exact frames.nonneg one mem
    · rw [List.mem_singleton.mp mem]
      exact nonneg
  · rw [thread, grown, taken, display]
    exact ⟨_, _, rfl, rest.of_tmp rfl rfl rfl, rfl⟩

/-- A step within a turn changes the thread's own data: its history is all there is to
show. -/
theorem Frames.within {regs : Regs} {thread : ThreadPc} (frames : Frames config sys)
    (history : History (lowMotion config sys.display) regs sys.display.ncount (held sys.log)
      thread) : Frames config { sys with regs := regs, thread := thread } :=
  ⟨frames.indices, frames.nonneg, frames.main, frames.stopping, history⟩

theorem Frames.branch (frames : Frames config sys)
    (hand : InHand (lowMotion config sys.display) sys.regs sys.display.ncount (held sys.log))
    (thread : sys.thread = .branch) (step : IpuDisplay.threadStep config sys = some sys') :
    Frames config sys' := by
  simp only [IpuDisplay.threadStep, thread] at step
  split at step
  · rename_i first
    obtain rfl := Option.some.inj step
    rw [first] at hand
    refine frames.within ?_
    rw [first]
    exact due_first hand
  · rename_i later
    split at step
    · rename_i second
      obtain rfl := Option.some.inj step
      rw [second.1, second.2] at hand
      refine frames.within ?_
      rw [second.1, second.2]
      exact due_second hand
    · rename_i third
      obtain rfl := Option.some.inj step
      exact frames.within ⟨hand, later, third⟩

theorem Frames.branchInit (frames : Frames config sys)
    (hand : InHand (lowMotion config sys.display) sys.regs sys.display.ncount (held sys.log))
    (later : sys.display.ncount ≠ 0)
    (third : ¬ (lowMotion config sys.display = true ∧ sys.display.ncount = 1))
    (thread : sys.thread = .branchInit) (step : IpuDisplay.threadStep config sys = some sys') :
    Frames config sys' := by
  simp only [IpuDisplay.threadStep, thread] at step
  split at step
  · rename_i sets
    obtain rfl := Option.some.inj step
    refine frames.within ⟨hand, ?_⟩
    cases low : lowMotion config sys.display with
    | false => simpa [low] using sets
    | true =>
        rw [low] at sets third
        right
        tauto
  · rename_i runs
    obtain rfl := Option.some.inj step
    refine frames.within ⟨hand, ?_⟩
    cases low : lowMotion config sys.display with
    | false =>
        rw [low] at runs
        simp only [Bool.false_eq_true, false_and, or_false] at runs
        exact .inl ⟨rfl, by omega⟩
    | true =>
        rw [low] at runs
        simp only [true_and, not_or] at runs
        exact .inr ⟨rfl, by omega⟩

theorem Frames.clrDispFlag (frames : Frames config sys)
    (due : Due (lowMotion config sys.display) sys.regs sys.display.ncount (held sys.log))
    (nonneg : 0 ≤ sys.regs.dispClrIndex)
    (enough : ¬ (lowMotion config sys.display = true ∧ sys.display.ncount < 2)) :
    Frames config { sys with
      log := sys.log ++ [.clrDispFlag sys.regs.dispClrIndex]
      thread := .count } := by
  have cleared : held (sys.log ++ [.clrDispFlag sys.regs.dispClrIndex]) =
      (held sys.log).erase sys.regs.dispClrIndex := held_snoc ..
  refine ⟨frames.indices, ?_, frames.main, frames.stopping, ?_⟩
  · intro index mem
    rw [cleared] at mem
    exact frames.nonneg index (List.mem_of_mem_erase mem)
  · rw [cleared]
    exact (rest_cleared due nonneg enough).2.2

theorem Frames.threadStep (flags : config.mjpg = false) (frames : Frames config sys)
    (step : threadStep config sys = some sys') : Frames config sys' := by
  have indices : Indices sys' := (threadStep_moves frames.indices step).indices frames.indices
  have history := frames.history
  cases thread : sys.thread <;> rw [thread] at history
  case branch => exact frames.branch history thread step
  case branchInit => exact frames.branchInit history.1 history.2.1 history.2.2 thread step
  all_goals simp only [IpuDisplay.threadStep, thread] at step
  case dequeue =>
    obtain ⟨empty, same⟩ | ⟨index, rest, contents, nonneg, taken, left⟩ :=
      dequeueBuf_cases frames.indices
    · rw [same] at step
      obtain rfl := Option.some.inj step
      exact frames.within (Rest.of_tmp history rfl rfl rfl)
    · rw [taken, if_neg nonneg, if_neg nonneg] at step
      obtain rfl := Option.some.inj step
      exact frames.takes { sys.regs with dispClrIndex := sys.regs.index } indices (by omega)
        (Rest.of_tmp history rfl rfl rfl) rfl rfl rfl rfl rfl
  case dequeueAgain =>
    obtain ⟨empty, same⟩ | ⟨index, rest, contents, nonneg, taken, left⟩ :=
      dequeueBuf_cases frames.indices
    · rw [same] at step
      obtain rfl := Option.some.inj step
      exact frames.within (Nat.le_trans (Rest.length history) (by split <;> decide))
    · rw [taken, if_neg nonneg, if_neg nonneg] at step
      obtain rfl := Option.some.inj step
      exact frames.takes sys.regs indices (by omega) history rfl rfl rfl rfl rfl
  case initShift =>
    obtain rfl := Option.some.inj step
    exact frames.within (due_init history.1 history.2)
  case updateShift =>
    obtain rfl := Option.some.inj step
    exact frames.within (due_update history.1 history.2)
  case testStopping =>
    rw [flags, frames.stopping] at step
    obtain rfl := Option.some.inj step
    refine frames.within ?_
    by_cases due : 0 ≤ sys.regs.dispClrIndex
    · rw [if_pos ⟨rfl, due, rfl⟩]
      exact ⟨history, due⟩
    · rw [if_neg fun all => due all.2.1]
      exact rest_skipped history frames.nonneg (.inl (Int.not_le.mp due))
  case testMotion =>
    obtain rfl := Option.some.inj step
    refine frames.within ?_
    obtain ⟨due, nonneg⟩ := history
    by_cases early : lowMotion config sys.display = true ∧ sys.display.ncount < 2
    · rw [if_pos early]
      exact rest_skipped due frames.nonneg (.inr early)
    · rw [if_neg early]
      exact ⟨due, nonneg, early⟩
  case clrDispFlag =>
    obtain rfl := Option.some.inj step
    exact frames.clrDispFlag history.1 history.2.1 history.2.2
  case asleep | gone => cases step
  all_goals
    obtain rfl := Option.some.inj step
    exact ⟨indices, frames.nonneg, frames.main, frames.stopping, history⟩

theorem frames_start (config : Config) (list : Nat → Int) : Frames config (.start list) := by
  refine ⟨?_, ?_, rfl, rfl, ?_⟩
  · intro index mem
    rw [Sys.start, BufQueue.contents_empty] at mem
    cases mem
  · intro index mem
    cases mem
  · exact .none

/-- In every run that switches early enough, the thread gives every buffer back once,
in order, and as soon as the IPU does not need it. -/
theorem ipu_returns_once (config : Config) (flags : config.mjpg = false) (list : Nat → Int)
    (acts : List Act) (goesOn : ∀ act ∈ acts, act ≠ .close ∧ act ≠ .threadFails)
    (early : StepsMeet (sysStep config) (SetsEarly config) acts (.start list)) :
    Throughout (sysStep config) (ReturnsOnce config) acts (.start list) := by
  refine throughout_of_stepsMeet (fun sys => Frames.returnsOnce) ?_ acts (Sys.start list)
    (frames_start config list) (early.and_mem goesOn)
  rintro sys act sys' frames ⟨early, notClose, succeeds⟩ step
  cases act with
  | put index interlaced => exact frames.put early step
  | close => exact absurd rfl notClose
  | main => exact frames.mainStep step
  | thread => exact frames.threadStep flags step
  | threadFails => exact absurd rfl succeeds

end Every

/-- Medium motion with the flag set for the second frame: buffer 3 is given back with
the third frame. -/
theorem ipu_returns_once_early :
    let acts : List Act :=
      [.put 3 false, .main, .main] ++ List.replicate 5 Act.thread ++
        [.put 4 true, .main, .main, .put 5 true, .main, .main] ++ List.replicate 13 Act.thread
    (runEvents (sysStep ⟨.med, false⟩) acts (.start fun _ => 0)).map
        (fun sys => (sys.thread, sys.regs.dispClrIndex)) = some (.clrDispFlag, 3) ∧
      Throughout (sysStep ⟨.med, false⟩) (ReturnsOnce ⟨.med, false⟩) acts (.start fun _ => 0) :=
  ⟨by decide +kernel,
    ipu_returns_once ⟨.med, false⟩ rfl (fun _ => 0) _ (by decide) (by decide +kernel)⟩

/-- Medium motion with the flag set for the third frame: buffer 3 was given back with
the second frame, and with the third it is given back again. -/
theorem ipu_returns_twice :
    let acts : List Act :=
      [.put 3 false, .main, .main, .put 4 false, .main, .main] ++ List.replicate 15 Act.thread ++
        [.put 5 true, .main, .main] ++ List.replicate 8 Act.thread
    ∃ sys : Sys, runEvents (sysStep ⟨.med, false⟩) acts (.start fun _ => 0) = some sys ∧
      sys.thread = .clrDispFlag ∧ sys.regs.dispClrIndex = 3 ∧ held sys.log = [4, 5] ∧
      ¬ ReturnsOnce ⟨.med, false⟩ sys := by
  intro acts
  have reached : (runEvents (sysStep ⟨.med, false⟩) acts (.start fun _ => 0)).map
      (fun sys => (sys.thread, sys.regs.dispClrIndex, held sys.log)) =
      some (.clrDispFlag, 3, [4, 5]) := by
    decide +kernel
  obtain ⟨sys, run, fields⟩ := Option.map_eq_some_iff.mp reached
  obtain ⟨clears, index, holds⟩ : sys.thread = .clrDispFlag ∧ sys.regs.dispClrIndex = 3 ∧
      held sys.log = [4, 5] := by
    simpa using fields
  refine ⟨sys, run, clears, index, holds, ?_⟩
  intro returns
  have oldest := (returns.clears clears).1
  rw [holds, index] at oldest
  simp at oldest

end ImxTest.Vpu.IpuFrames
