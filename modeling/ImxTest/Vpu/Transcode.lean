import ImxTest.Lib.Run
import ImxTest.Lib.Session

/-!
# The loop of `transcode_start`

A turn decodes a frame, starts the encoder on the picture to be shown, puts it on
the display and collects the encoder's output at the end of the loop body.  What
the VPU, the input and the signal handler do in a turn is in `Turn`; a turn that
ends the function with an error has no next state.

The encoder is started before the loop looks at what the decoder reported, so each
way to leave the body early leaves an encoder behind that no one asks for its
output.
-/

set_option autoImplicit false

namespace ImxTest.Vpu.Transcode

open ImxTest.Lib.Run
open ImxTest.Lib.Session

/-! ## The calls -/

inductive Call where
  | decStart
  | encStart
  | encGetOutputInfo
  | encRead
  /-- The loop is left. -/
  | finish
  deriving DecidableEq, Repr

def Call.opens : Call → Bool
  | .encStart => true
  | _ => false

def Call.boundary : Call → Bool
  | .decStart => true
  | .encStart => true
  | .finish => true
  | _ => false

/-- Each successful `vpu_EncStartOneFrame` is followed by one `vpu_EncGetOutputInfo`
and one read of the bitstream, and only then by anything else. -/
def EncodesComplete (trace : List Call) : Prop :=
  Completes Call.opens Call.boundary [.encGetOutputInfo, .encRead] trace

/-! ## One turn of the loop -/

inductive RetCode where
  | success
  | jpegEos
  | jpegBitEmpty
  | failure
  deriving DecidableEq, Repr

structure Config where
  /-- `cpu_is_mx6x`. -/
  mx6x : Bool
  mjpg : Bool
  prescan : Int
  regfbcount : Nat
  count : Int
  /-- The input comes from the network. -/
  net : Bool
  /-- The pictures go to a V4L2 display. -/
  v4l2 : Bool
  ringBufferEnable : Bool
  deriving DecidableEq, Repr

/-- `decparam.prescanEnable`, which stays 0 on the mx6x. -/
def Config.prescanEnable (config : Config) : Int := if config.mx6x then 0 else config.prescan

/-- What happens around one turn.  A call of `dec_fill_bsbuffer` fails or leaves a
value in `eos`. -/
structure Turn where
  fillBefore : Option Bool
  decStart : RetCode
  fillBitEmpty : Option Bool
  /-- The polls while the decoder is busy, each with a fill. -/
  decBusy : List (Option Bool)
  decGetOutputInfo : RetCode
  indexFrameDisplay : Int
  decodingSuccess : Nat
  prescanresult : Int
  notSufficientPsBuffer : Bool
  notSufficientSliceBuffer : Bool
  encStart : RetCode
  fillRollback : Option Bool
  fillPrescan : Option Bool
  /-- `quitflag` where the turn reads it. -/
  quitflag : Bool
  putFails : Bool
  fillNet : Option Bool
  /-- The polls while the encoder is busy. -/
  encBusy : Nat
  encGetOutputInfo : RetCode
  readFails : Bool
  deriving DecidableEq, Repr

/-- The loop between two turns; `rotid` as it goes round for motion JPEG. -/
structure State where
  eos : Bool
  frameId : Nat
  rotid : Nat
  ended : Bool
  trace : List Call
  deriving DecidableEq, Repr

def State.start : State := ⟨false, 0, 0, false, []⟩

def decBusy (fills : Bool) : List (Option Bool) → Nat → Bool → Option Bool
  | [], _, eos => some eos
  | fill :: rest, loopId, eos => do
      let eos ← if fills then fill else some eos
      if loopId = 50 then none else decBusy fills rest (loopId + 1) eos

/-- `outinfo.indexFrameDisplay`, where 0 stands for `rotid` with motion JPEG. -/
def displayIndex (config : Config) (state : State) (turn : Turn) : Int :=
  if config.mjpg ∧ turn.indexFrameDisplay = 0 then state.rotid else turn.indexFrameDisplay

inductive Leave where
  | again
  | stop
  | onward
  deriving DecidableEq, Repr

def leave (config : Config) (state : State) (turn : Turn) : Option (Leave × Bool) :=
  let index := displayIndex config state turn
  if turn.decodingSuccess = 0 then
    some (if turn.quitflag then .stop else .again, state.eos)
  else if config.mx6x ∧ turn.decodingSuccess &&& 0x10 ≠ 0 then do
    let eos ← turn.fillRollback
    some (if turn.quitflag then .stop else .again, eos)
  else if turn.notSufficientPsBuffer then none
  else if turn.notSufficientSliceBuffer then none
  -- decodefinish
  else if index = -1 ∨
      (index > config.regfbcount ∧ turn.prescanresult ≠ 0 ∧ config.mx6x = false) then
    some (.stop, state.eos)
  else if config.mx6x = false ∧ turn.prescanresult = 0 ∧ config.prescanEnable = 1 then
    if state.eos then some (.stop, state.eos)
    else do
      let eos ← turn.fillPrescan
      some (if eos then .stop else .again, eos)
  else if turn.quitflag then some (.stop, state.eos)
  else if index = -3 ∨ index = -2 then some (.again, state.eos)
  else if config.v4l2 ∧ turn.putFails then none
  else if config.count ≠ 0 ∧ (state.frameId : Int) ≥ config.count then some (.stop, state.eos)
  else (if config.net then turn.fillNet else some state.eos).map (Leave.onward, ·)

def collect (config : Config) (state : State) (turn : Turn) (index : Int) : Option State :=
  if 10 < turn.encBusy then none
  else if 0 ≤ index then
    if turn.encGetOutputInfo ≠ .success then none
    else if config.ringBufferEnable = false ∧ turn.readFails then
      some { state with
        ended := true
        trace := state.trace ++ [.encGetOutputInfo, .encRead, .finish] }
    else
      some { state with
        frameId := state.frameId + 1
        trace := state.trace ++ [.encGetOutputInfo, .encRead] }
  else some { state with frameId := state.frameId + 1 }

def afterStart (config : Config) (state : State) (turn : Turn) : Option State := do
  let (leaving, eos) ← leave config state turn
  match leaving with
  | .again => some { state with eos := eos }
  | .stop =>
      some { state with eos := eos, ended := true, trace := state.trace ++ [.finish] }
  | .onward =>
      let rotid :=
        if config.v4l2 ∧ config.mjpg then (state.rotid + 1) % config.regfbcount else state.rotid
      collect config { state with eos := eos, rotid := rotid } turn
        (displayIndex config state turn)

/-- The return code that the loop looks at: a picture's `vpu_EncStartOneFrame`
replaces that of `vpu_DecGetOutputInfo`. -/
def startReturn (turn : Turn) : RetCode :=
  if 0 ≤ turn.indexFrameDisplay then turn.encStart else turn.decGetOutputInfo

def startCalls (turn : Turn) : List Call := if 0 ≤ turn.indexFrameDisplay then [.encStart] else []

/-- The fill before `vpu_DecStartOneFrame`, for the JPEG unit of the mx6x. -/
def fillFirst (config : Config) (state : State) (turn : Turn) : Option Bool :=
  if config.mx6x && config.mjpg then turn.fillBefore else some state.eos

def transcodeStep (config : Config) (state : State) (turn : Turn) : Option State :=
  if state.ended then none
  else do
    let eos ← fillFirst config state turn
    match turn.decStart with
    | .jpegEos =>
        some { state with
          eos := eos
          ended := true
          trace := state.trace ++ [.decStart, .finish] }
    | .jpegBitEmpty => do
        let eos ← turn.fillBitEmpty
        some { state with eos := eos, trace := state.trace ++ [.decStart] }
    | .failure => none
    | .success => do
        let eos ← decBusy (!(config.mx6x && config.mjpg)) turn.decBusy 0 eos
        if startReturn turn ≠ .success then none
        else
          afterStart config
            { state with eos := eos, trace := state.trace ++ .decStart :: startCalls turn } turn

/-! ## When the output is collected -/

/-- Nothing in the turn leads out of the loop body early. -/
structure Undisturbed (config : Config) (state : State) (turn : Turn) : Prop where
  decoded : turn.decodingSuccess ≠ 0
  enough : ¬ (config.mx6x = true ∧ turn.decodingSuccess &&& 0x10 ≠ 0)
  unfinished : ¬ (displayIndex config state turn > config.regfbcount ∧
    turn.prescanresult ≠ 0 ∧ config.mx6x = false)
  scanned : ¬ (config.mx6x = false ∧ turn.prescanresult = 0 ∧ config.prescanEnable = 1)
  running : turn.quitflag = false
  counting : ¬ (config.count ≠ 0 ∧ (state.frameId : Int) ≥ config.count)

/-- Of the state only the frame count and the target matter. -/
theorem Undisturbed.of_same {config : Config} {state other : State} {turn : Turn}
    (clear : Undisturbed config state turn) (frameId : other.frameId = state.frameId)
    (rotid : other.rotid = state.rotid) : Undisturbed config other turn := by
  have index : displayIndex config other turn = displayIndex config state turn := by
    simp only [displayIndex, rotid]
  obtain ⟨decoded, enough, unfinished, scanned, running, counting⟩ := clear
  rw [← index] at unfinished
  rw [← frameId] at counting
  exact ⟨decoded, enough, unfinished, scanned, running, counting⟩

def PictureUndisturbed (config : Config) (state : State) (turn : Turn) : Prop :=
  turn.decStart = .success → 0 ≤ turn.indexFrameDisplay → Undisturbed config state turn

section Turn
variable {config : Config} {state : State} {turn : Turn}

theorem displayIndex_nonneg (picture : 0 ≤ turn.indexFrameDisplay) :
    0 ≤ displayIndex config state turn := by
  unfold displayIndex
  split
  · omega
  · exact picture

theorem leave_onward_iff (picture : 0 ≤ turn.indexFrameDisplay) {leaving : Leave} {eos : Bool}
    (left : leave config state turn = some (leaving, eos)) :
    leaving = .onward ↔ Undisturbed config state turn := by
  have shown : 0 ≤ displayIndex config state turn := displayIndex_nonneg picture
  have away : ∀ quit : Bool, (if quit then Leave.stop else Leave.again) ≠ .onward := by decide
  have stop : Leave.stop ≠ .onward := by decide
  simp only [leave] at left
  -- the conditions in the order of the source: each way out has its own field
  by_cases failed : turn.decodingSuccess = 0
  · simp only [if_pos failed, Option.some.injEq, Prod.mk.injEq] at left
    exact iff_of_false (left.1 ▸ away turn.quitflag) fun clear => clear.decoded failed
  by_cases short : config.mx6x = true ∧ turn.decodingSuccess &&& 0x10 ≠ 0
  · simp only [if_neg failed, if_pos short, Option.bind_eq_bind, Option.bind_eq_some_iff,
      Option.some.injEq, Prod.mk.injEq] at left
    obtain ⟨_, _, left, _⟩ := left
    exact iff_of_false (left ▸ away turn.quitflag) fun clear => clear.enough short
  simp only [if_neg failed, if_neg short] at left
  by_cases noPsBuffer : turn.notSufficientPsBuffer = true
  · rw [if_pos noPsBuffer] at left
    cases left
  rw [if_neg noPsBuffer] at left
  by_cases noSliceBuffer : turn.notSufficientSliceBuffer = true
  · rw [if_pos noSliceBuffer] at left
    cases left
  rw [if_neg noSliceBuffer] at left
  by_cases finished : displayIndex config state turn > config.regfbcount ∧
      turn.prescanresult ≠ 0 ∧ config.mx6x = false
  · simp only [if_pos (Or.inr finished), Option.some.injEq, Prod.mk.injEq] at left
    exact iff_of_false (left.1 ▸ stop) fun clear => clear.unfinished finished
  rw [if_neg (not_or.mpr ⟨by omega, finished⟩)] at left
  by_cases unscanned : config.mx6x = false ∧ turn.prescanresult = 0 ∧ config.prescanEnable = 1
  · refine iff_of_false ?_ fun clear => clear.scanned unscanned
    rw [if_pos unscanned] at left
    split at left
    · obtain ⟨rfl, _⟩ := Prod.mk.inj (Option.some.inj left)
      exact stop
    · simp only [Option.bind_eq_bind, Option.bind_eq_some_iff, Option.some.injEq,
        Prod.mk.injEq] at left
      obtain ⟨found, _, left, _⟩ := left
      exact left ▸ away found
  rw [if_neg unscanned] at left
  by_cases quit : turn.quitflag = true
  · simp only [if_pos quit, Option.some.injEq, Prod.mk.injEq] at left
    exact iff_of_false (left.1 ▸ stop) fun clear => by simp [clear.running] at quit
  rw [if_neg quit, if_neg (by omega)] at left
  split at left
  · cases left
  by_cases counted : config.count ≠ 0 ∧ (state.frameId : Int) ≥ config.count
  · simp only [if_pos counted, Option.some.injEq, Prod.mk.injEq] at left
    exact iff_of_false (left.1 ▸ stop) fun clear => clear.counting counted
  simp only [if_neg counted, Option.map_eq_some_iff, Prod.mk.injEq] at left
  obtain ⟨_, _, rfl, _⟩ := left
  exact iff_of_true rfl ⟨failed, short, finished, unscanned, by simpa using quit, counted⟩

theorem collect_calls {index : Int} {next : State}
    (step : collect config state turn index = some next) :
    ∃ calls, next.trace = state.trace ++ calls ∧
      (0 ≤ index → calls.takeWhile (fun call => !call.boundary) = [.encGetOutputInfo, .encRead]) ∧
      EncodesComplete calls := by
  unfold collect at step
  split at step
  · cases step
  split at step
  · split at step
    · cases step
    split at step
    · obtain rfl := Option.some.inj step
      refine ⟨_, rfl, fun _ => rfl, ?_⟩
      simp [EncodesComplete, completes_cons, completes_nil, Call.opens]
    · obtain rfl := Option.some.inj step
      refine ⟨_, rfl, fun _ => rfl, ?_⟩
      simp [EncodesComplete, completes_cons, completes_nil, Call.opens]
  · rename_i noPicture
    obtain rfl := Option.some.inj step
    exact ⟨[], by simp, fun picture => absurd picture noPicture, completes_nil⟩

/-- Behind the start of the encoder, the calls complete it iff nothing disturbs the
turn. -/
theorem afterStart_calls {next : State} (step : afterStart config state turn = some next) :
    ∃ calls, next.trace = state.trace ++ calls ∧
      (EncodesComplete (startCalls turn ++ calls) ↔
        (0 ≤ turn.indexFrameDisplay → Undisturbed config state turn)) := by
  simp only [afterStart, Option.bind_eq_bind, Option.bind_eq_some_iff] at step
  obtain ⟨⟨leaving, eos⟩, left, step⟩ := step
  obtain ⟨calls, trace, collected, complete⟩ : ∃ calls, next.trace = state.trace ++ calls ∧
      (0 ≤ turn.indexFrameDisplay →
        (calls.takeWhile (fun call => !call.boundary) = [.encGetOutputInfo, .encRead] ↔
          leaving = .onward)) ∧ EncodesComplete calls := by
    cases leaving with
    | again =>
        obtain rfl := Option.some.inj step
        exact ⟨[], by simp, by simp, completes_nil⟩
    | stop =>
        obtain rfl := Option.some.inj step
        refine ⟨[.finish], rfl, by simp [Call.boundary], ?_⟩
        simp [EncodesComplete, completes_cons, completes_nil, Call.opens]
    | onward =>
        obtain ⟨calls, trace, collected, complete⟩ := collect_calls step
        exact ⟨calls, trace, fun picture =>
          iff_of_true (collected (displayIndex_nonneg picture)) rfl, complete⟩
  refine ⟨calls, trace, ?_⟩
  by_cases picture : 0 ≤ turn.indexFrameDisplay
  · have undisturbed := (collected picture).trans (leave_onward_iff picture left)
    rw [startCalls, if_pos picture, List.singleton_append, EncodesComplete, completes_cons,
      undisturbed]
    exact ⟨fun both _ => both.1 rfl, fun clear => ⟨fun _ => clear picture, complete⟩⟩
  · rw [startCalls, if_neg picture, List.nil_append]
    exact iff_of_true complete fun shown => absurd shown picture

/-- One turn adds its calls, and they are complete iff the turn is undisturbed
where it has a picture. -/
theorem transcodeStep_calls {next : State} (step : transcodeStep config state turn = some next) :
    ∃ calls, next.trace = state.trace ++ .decStart :: calls ∧
      (EncodesComplete (.decStart :: calls) ↔ PictureUndisturbed config state turn) := by
  have decoding : ∀ calls, EncodesComplete (.decStart :: calls) ↔ EncodesComplete calls := by
    intro calls
    rw [EncodesComplete, completes_cons]
    exact and_iff_right (by simp [Call.opens])
  unfold transcodeStep at step
  split at step
  · cases step
  simp only [Option.bind_eq_bind, Option.bind_eq_some_iff] at step
  obtain ⟨eos, _, step⟩ := step
  cases start : turn.decStart with
  | jpegEos =>
      simp only [start, Option.some.injEq] at step
      subst step
      refine ⟨[.finish], rfl, iff_of_true ?_ fun started => by simp [start] at started⟩
      simp [EncodesComplete, completes_cons, completes_nil, Call.opens]
  | jpegBitEmpty =>
      simp only [start, Option.bind_eq_some_iff, Option.some.injEq] at step
      obtain ⟨_, _, rfl⟩ := step
      refine ⟨[], rfl, iff_of_true ?_ fun started => by simp [start] at started⟩
      simp [EncodesComplete, completes_cons, completes_nil, Call.opens]
  | failure => simp [start] at step
  | success =>
      simp only [start, Option.bind_eq_some_iff] at step
      obtain ⟨eos, _, step⟩ := step
      split at step
      · cases step
      obtain ⟨calls, trace, complete⟩ := afterStart_calls step
      refine ⟨startCalls turn ++ calls, by simp [trace], ?_⟩
      rw [decoding, complete]
      exact ⟨fun clear _ picture => (clear picture).of_same rfl rfl,
        fun clear picture => (clear start picture).of_same rfl rfl⟩

end Turn

/-! ## Whole runs -/

theorem transcode_run {config : Config} (turns : List Turn) (start final : State)
    (run : runEvents (transcodeStep config) turns start = some final) :
    EncodesComplete final.trace ↔ EncodesComplete start.trace ∧
      StepsMeet (transcodeStep config) (PictureUndisturbed config) turns start := by
  induction turns generalizing start with
  | nil =>
      obtain rfl := Option.some.inj run
      simp [StepsMeet]
  | cons turn rest ih =>
      obtain ⟨next, step, later⟩ := (runEvents_cons _ _ _ _).mp run
      obtain ⟨calls, trace, complete⟩ := transcodeStep_calls step
      have added : EncodesComplete next.trace ↔
          EncodesComplete start.trace ∧ PictureUndisturbed config start turn := by
        rw [trace, EncodesComplete, completes_append _ _ (by simp [Call.boundary])]
        exact and_congr_right fun _ => complete
      rw [ih next later, added, and_assoc]
      refine and_congr_right fun _ => ?_
      simp only [StepsMeet, step, Option.some.injEq, forall_eq']

/-- A run that no error ends completes every encode it starts iff every turn with a
picture is undisturbed. -/
theorem transcodeStart_complete_iff (config : Config) (turns : List Turn) (final : State)
    (run : runEvents (transcodeStep config) turns .start = some final) :
    EncodesComplete final.trace ↔
      StepsMeet (transcodeStep config) (PictureUndisturbed config) turns .start := by
  rw [transcode_run turns .start final run]
  exact and_iff_right completes_nil

def pictureTurn : Turn where
  fillBefore := some false
  decStart := .success
  fillBitEmpty := some false
  decBusy := [some false]
  decGetOutputInfo := .success
  indexFrameDisplay := 0
  decodingSuccess := 1
  prescanresult := 1
  notSufficientPsBuffer := false
  notSufficientSliceBuffer := false
  encStart := .success
  fillRollback := some false
  fillPrescan := some false
  quitflag := false
  putFails := false
  fillNet := some false
  encBusy := 1
  encGetOutputInfo := .success
  readFails := false

theorem transcodeStart_complete_iff_two :
    let config : Config := ⟨true, false, 0, 4, 0, false, true, true⟩
    let turns := [pictureTurn, pictureTurn]
    ∃ final, runEvents (transcodeStep config) turns .start = some final ∧
      final.trace = [.decStart, .encStart, .encGetOutputInfo, .encRead,
        .decStart, .encStart, .encGetOutputInfo, .encRead] ∧
      (EncodesComplete final.trace ↔
        StepsMeet (transcodeStep config) (PictureUndisturbed config) turns .start) :=
  ⟨_, rfl, rfl, transcodeStart_complete_iff _ _ _ rfl⟩

/-- With a limit of one frame, the second picture is started and left. -/
theorem transcodeStart_leaves_encode :
    let config : Config := ⟨true, false, 0, 4, 1, false, true, true⟩
    ∃ final, runEvents (transcodeStep config) [pictureTurn, pictureTurn] .start = some final ∧
      final.trace = [.decStart, .encStart, .encGetOutputInfo, .encRead,
        .decStart, .encStart, .finish] ∧
      ¬ EncodesComplete final.trace := by
  refine ⟨_, rfl, rfl, ?_⟩
  intro complete
  have last := complete [.decStart, .encStart, .encGetOutputInfo, .encRead, .decStart] .encStart
    [.finish] rfl rfl
  simp [Call.boundary] at last

end ImxTest.Vpu.Transcode
