import ImxTest.Vpu.TranscodeTest

/-!
# What `transcode_test` leaves of the decoder's source

The encoder's set-up writes the encoder's format into the shared command line, and
`transcode_start` clears the source there.  The decoder's later tests of the format, the
path of its `vpu_read` and the clean-up go by these values.  The run is cut where the
encoder is given the command line: before that every note is what the command line says,
and behind it every note is about H.264 and no source.
-/

set_option autoImplicit false

namespace ImxTest.Vpu.TranscodeTest

open ImxTest.Lib.Traced
open ImxTest.Vpu.Transcode (Config State displayIndex startReturn transcodeStep)

/-! ## When the loop asks for input -/

def Note.IsFill : Note → Prop
  | .fill _ _ => True
  | _ => False

/-- The turn comes to a `dec_fill_bsbuffer`, where the format is not motion JPEG and the
source not the network. -/
def NeedsInput (config : Config) (state : State) (turn : Turn) : Prop :=
  turn.decStart = .jpegBitEmpty ∨
    turn.decStart = .success ∧
      (turn.decBusy ≠ [] ∨
        startReturn turn.toTurn = .success ∧ turn.decodingSuccess ≠ 0 ∧
          if config.mx6x then turn.decodingSuccess &&& 0x10 ≠ 0
          else turn.notSufficientPsBuffer = false ∧ turn.notSufficientSliceBuffer = false ∧
            turn.indexFrameDisplay ≠ -1 ∧ turn.prescanresult = 0 ∧ config.prescan = 1 ∧
            state.eos = false)

/-- The loop comes to a turn that asks for input. -/
def LoopRefills (config : Config) : List Turn → State → Prop
  | [], _ => False
  | turn :: rest, state =>
      state.ended = false ∧
        (NeedsInput config state turn ∨
          ∃ next, transcodeStep config state turn.toTurn = some next ∧
            LoopRefills config rest next)

section Notes
variable {inv : CmdLine → Prop} {good : Note → Prop} (run : Run)

theorem call_keeps (one : SetupCall) (exit : Exit) : Keeps inv good (call run one exit) :=
  Keeps.ite (fun _ => Keeps.pure ()) fun _ => Keeps.quit exit

section Tests
variable (tests : ∀ cmdl, inv cmdl → good (.decision cmdl.format))
include tests

theorem formatIs_keeps (std : Format) : Keeps inv good (formatIs std) :=
  (Keeps.note tests).bind fun _ _ => Keeps.ask _

theorem jpegUnit_keeps : Keeps inv good (jpegUnit run) :=
  Keeps.ite (fun _ => formatIs_keeps tests .mjpg) fun _ => Keeps.pure false

theorem throughRotator_keeps : Keeps inv good throughRotator :=
  (Keeps.ask _).bind fun _ _ =>
    Keeps.ite (fun _ => Keeps.pure true) fun _ => formatIs_keeps tests .mjpg

theorem fieldOrder_keeps (turn : Turn) : Keeps inv good (fieldOrder turn) :=
  Keeps.ite (fun _ => (formatIs_keeps tests .vc1).discard) fun _ => Keeps.pure ()

theorem errMbs_keeps (turn : Turn) : Keeps inv good (errMbs run turn) :=
  Keeps.ite (fun _ => (jpegUnit_keeps run tests).discard) fun _ => Keeps.pure ()

theorem display_keeps (turn : Turn) : Keeps inv good (display turn) := by
  have test := formatIs_keeps tests .mjpg
  refine (throughRotator_keeps tests).discard.bind fun _ _ => (Keeps.ask _).bind fun _ _ => ?_
  refine Keeps.ite (fun _ => Keeps.ite (fun _ => Keeps.quit _) fun _ => ?_) fun _ => ?_
  · exact test.discard.bind fun _ _ => test
  · exact test.discard.bind fun _ _ => Keeps.pure false

section Fills
variable (fills : ∀ cmdl size, inv cmdl → good (.fill (vpuReadPath cmdl.srcScheme) size))
include fills

omit tests in
theorem decFillEos_keeps (size : Nat) (answer : Option Bool) :
    Keeps inv good (decFillEos size answer) := by
  refine (Keeps.note fun cmdl holds => fills cmdl size holds).bind fun _ _ => ?_
  cases answer with
  | none => exact Keeps.quit _
  | some eos => exact Keeps.pure eos

theorem decBusy_keeps (answers : List (Option Bool)) (loopId : Nat) (eos : Bool) :
    Keeps inv good (decBusy run answers loopId eos) := by
  induction answers generalizing loopId eos with
  | nil => exact Keeps.pure eos
  | cons answer rest ih =>
      refine (jpegUnit_keeps run tests).bind fun _ _ => ?_
      refine (Keeps.ite (fun _ => Keeps.pure eos) fun _ => decFillEos_keeps fills _ answer).bind
        fun eos _ => ?_
      exact Keeps.ite (fun _ => Keeps.quit _) fun _ => ih (loopId + 1) eos

theorem shown_keeps (eos : Bool) (frameId : Nat) (turn : Turn) :
    Keeps inv good (shown run eos frameId turn) := by
  refine (display_keeps tests turn).bind fun rotates _ => ?_
  refine (errMbs_keeps run tests turn).bind fun _ _ => (Keeps.ask _).bind fun _ _ => ?_
  refine Keeps.ite (fun _ => Keeps.pure _) fun _ => (Keeps.ask _).bind fun _ _ => ?_
  exact (Keeps.ite (fun _ => decFillEos_keeps fills _ _) fun _ => Keeps.pure eos).bind
    fun _ _ => Keeps.pure _

omit tests in
theorem prescanFill_keeps (eos : Bool) (turn : Turn) : Keeps inv good (prescanFill eos turn) :=
  Keeps.ite (fun _ => Keeps.pure _) fun _ => (Keeps.ask _).bind fun _ _ =>
    (decFillEos_keeps fills _ _).bind fun _ _ => Keeps.pure _

theorem decoded_keeps (eos : Bool) (frameId : Nat) (index : Int) (turn : Turn) :
    Keeps inv good (decoded run eos frameId index turn) := by
  refine (fieldOrder_keeps tests turn).bind fun _ _ => (Keeps.ask _).bind fun _ _ => ?_
  refine Keeps.ite (fun _ => Keeps.pure _) fun _ => ?_
  refine Keeps.ite (fun _ => ?_) fun _ => ?_
  · exact (prescanFill_keeps fills eos turn).bind fun _ _ => Keeps.pure _
  refine Keeps.ite (fun _ => Keeps.pure _) fun _ => ?_
  refine Keeps.ite (fun _ => ?_) fun _ => shown_keeps run tests fills eos frameId turn
  exact (formatIs_keeps tests .mjpg).discard.bind fun _ _ => Keeps.pure _

theorem leave_keeps (eos : Bool) (frameId : Nat) (index : Int) (turn : Turn) :
    Keeps inv good (leave run eos frameId index turn) := by
  refine Keeps.ite (fun _ => Keeps.pure _) fun _ => ?_
  refine Keeps.ite (fun _ => ?_) fun _ => ?_
  · exact (decFillEos_keeps fills _ _).bind fun _ _ => Keeps.pure _
  refine Keeps.ite (fun _ => Keeps.quit _) fun _ => ?_
  exact Keeps.ite (fun _ => Keeps.quit _) fun _ => decoded_keeps run tests fills eos frameId _ turn

omit tests fills in
theorem collected_keeps (result : Option State) :
    Keeps inv good (result.elim (quit .returned) pure : Transcoder State) := by
  cases result with
  | none => exact Keeps.quit _
  | some next => exact Keeps.pure next

theorem afterStart_keeps (state : State) (turn : Turn) :
    Keeps inv good (afterStart run state turn) := by
  refine (formatIs_keeps tests .mjpg).bind fun _ _ => ?_
  refine (leave_keeps run tests fills _ _ _ turn).bind fun left _ => ?_
  obtain ⟨leaving, eos, rotates⟩ := left
  cases leaving with
  | again => exact Keeps.pure _
  | stop => exact Keeps.pure _
  | onward => exact (Keeps.ask _).bind fun _ _ => collected_keeps _

theorem turnBody_keeps (state : State) (turn : Turn) :
    Keeps inv good (turnBody run state turn) := by
  refine (throughRotator_keeps tests).discard.bind fun _ _ => ?_
  refine (jpegUnit_keeps run tests).bind fun _ _ => ?_
  refine (Keeps.ite (fun _ => decFillEos_keeps fills _ _) fun _ => Keeps.pure _).bind fun _ _ => ?_
  cases turn.decStart with
  | jpegEos => exact Keeps.pure _
  | jpegBitEmpty => exact (decFillEos_keeps fills _ _).bind fun _ _ => Keeps.pure _
  | failure => exact Keeps.quit _
  | success =>
      refine (decBusy_keeps run tests fills _ _ _).bind fun _ _ => ?_
      exact Keeps.ite (fun _ => Keeps.quit _) fun _ => afterStart_keeps run tests fills _ turn

/-- Over the whole loop, a test notes the format and a fill the path that are set. -/
theorem loop_keeps (turns : List Turn) (state : State) :
    Keeps inv good (loop run turns state) := by
  induction turns generalizing state with
  | nil => exact Keeps.pure state
  | cons turn rest ih =>
      refine Keeps.ite (fun _ => Keeps.pure state) fun _ => ?_
      exact (turnBody_keeps run tests fills state turn).bind fun next _ => ih next

end Fills
end Tests
end Notes

/-- A program that only tests the format calls no fill. -/
theorem quiet_of_tests {α : Type} {program : Transcoder α} {cmdl : CmdLine}
    (kept : (∀ cmdl : CmdLine, True → ¬ Note.IsFill (.decision cmdl.format)) →
      Keeps (fun _ => True) (fun seen => ¬ Note.IsFill seen) program) :
    ¬ Noted Note.IsFill (program cmdl).log :=
  (kept fun _ _ fill => fill).not_noted trivial

section Exact
variable {run : Run} {cmdl : CmdLine}

theorem decFillEos_fills (size : Nat) (answer : Option Bool) :
    Noted Note.IsFill (decFillEos size answer cmdl).log := by
  simp [decFillEos, decFillBsbuffer, Note.IsFill]

theorem prescanFill_fills (eos : Bool) (turn : Turn) :
    Noted Note.IsFill (prescanFill eos turn cmdl).log ↔ eos = false := by
  unfold prescanFill
  cases eos with
  | true => simp
  | false =>
      rw [if_neg Bool.false_ne_true, (Computes.ask _).noted_next (by simp),
        (decFillEos_computes cmdl _ _).noted_bind]
      exact iff_of_true (.inl (decFillEos_fills _ _)) rfl

section NotMjpg
variable (notMjpg : cmdl.format ≠ .mjpg)
include notMjpg

theorem jpegUnit_false : Computes (jpegUnit run) cmdl (some false) := by
  have gives := jpegUnit_computes run cmdl
  rwa [beq_eq_false_iff_ne.mpr notMjpg, Bool.and_false] at gives

theorem decBusy_fills (answers : List (Option Bool)) (loopId : Nat) (eos : Bool) :
    Noted Note.IsFill (decBusy run answers loopId eos cmdl).log ↔ answers ≠ [] := by
  cases answers with
  | nil => simp [decBusy]
  | cons answer rest =>
      have quiet : ¬ Noted Note.IsFill (jpegUnit run cmdl).log := 
        quiet_of_tests fun tests => jpegUnit_keeps run tests
      rw [decBusy, (jpegUnit_false notMjpg).noted_next quiet, if_neg Bool.false_ne_true,
        (decFillEos_computes cmdl _ _).noted_bind]
      exact iff_of_true (.inl (decFillEos_fills _ _)) (List.cons_ne_nil _ _)

end NotMjpg

section NotNet
variable (notNet : cmdl.srcScheme ≠ .net)
include notNet

theorem shown_quiet (eos : Bool) (frameId : Nat) (turn : Turn) :
    ¬ Noted Note.IsFill (shown run eos frameId turn cmdl).log := by
  rw [shown, (display_computes cmdl turn).noted_bind]
  rintro (shows | ⟨rotates, _, later⟩)
  · exact quiet_of_tests (fun tests => display_keeps tests turn) shows
  rw [(errMbs_computes run cmdl turn).noted_next
    (quiet_of_tests fun tests => errMbs_keeps run tests turn),
    (Computes.ask _).noted_next (by simp)] at later
  split at later
  · simp at later
  · rw [(Computes.ask _).noted_next (by simp), if_neg (by simpa using notNet)] at later
    simp at later

/-- Behind the tests for errors, only a prescan that found too little fills. -/
theorem decoded_fills (eos : Bool) (frameId : Nat) (index : Int) (turn : Turn) :
    Noted Note.IsFill (decoded run eos frameId index turn cmdl).log ↔
      run.mx6x = false ∧ index ≠ -1 ∧ turn.prescanresult = 0 ∧ cmdl.prescan = 1 ∧ eos = false := by
  rw [decoded, (fieldOrder_computes cmdl turn).noted_next
    (quiet_of_tests fun tests => fieldOrder_keeps tests turn),
    (Computes.ask _).noted_next (by simp)]
  have prescans : (run.mx6x = false ∧ turn.prescanresult = 0 ∧
      (run.config cmdl).prescanEnable = 1) ↔
        run.mx6x = false ∧ turn.prescanresult = 0 ∧ cmdl.prescan = 1 := by
    refine and_congr_right fun old => ?_
    simp [Config.prescanEnable, old]
  by_cases finished : index = -1 ∨
      (index > run.regfbcount ∧ turn.prescanresult ≠ 0 ∧ run.mx6x = false)
  · rw [if_pos finished]
    refine iff_of_false (by simp) fun fills => ?_
    rcases finished with last | ⟨_, scanned, _⟩
    · exact fills.2.1 last
    · exact scanned fills.2.2.1
  rw [if_neg finished]
  have shows : index ≠ -1 := fun last => finished (.inl last)
  by_cases unscanned : run.mx6x = false ∧ turn.prescanresult = 0 ∧
      (run.config cmdl).prescanEnable = 1
  · obtain ⟨old, found, enabled⟩ := prescans.mp unscanned
    rw [if_pos unscanned, (prescanFill_computes cmdl eos turn).noted_bind, prescanFill_fills]
    simp [old, found, enabled, shows]
  rw [if_neg unscanned]
  refine iff_of_false ?_ fun fills => unscanned (prescans.mpr ⟨fills.1, fills.2.2.1, fills.2.2.2.1⟩)
  split
  · simp
  split
  · rw [(formatIs_computes cmdl .mjpg).discard.noted_next
      (quiet_of_tests fun tests => (formatIs_keeps tests .mjpg).discard)]
    simp
  · exact shown_quiet notNet eos frameId turn

theorem leave_fills (eos : Bool) (frameId : Nat) (index : Int) (turn : Turn) :
    Noted Note.IsFill (leave run eos frameId index turn cmdl).log ↔
      turn.decodingSuccess ≠ 0 ∧
        if run.mx6x then turn.decodingSuccess &&& 0x10 ≠ 0
        else turn.notSufficientPsBuffer = false ∧ turn.notSufficientSliceBuffer = false ∧
          index ≠ -1 ∧ turn.prescanresult = 0 ∧ cmdl.prescan = 1 ∧ eos = false := by
  unfold leave
  by_cases failed : turn.decodingSuccess = 0
  · rw [if_pos failed]
    exact iff_of_false (by simp) fun fills => fills.1 failed
  rw [if_neg failed, and_iff_right failed]
  by_cases short : run.mx6x = true ∧ turn.decodingSuccess &&& 0x10 ≠ 0
  · rw [if_pos short, if_pos short.1, (decFillEos_computes cmdl _ _).noted_bind]
    exact iff_of_true (.inl (decFillEos_fills _ _)) short.2
  rw [if_neg short]
  have quiet : ∀ (stopped : Bool) (rest : Transcoder (Transcode.Leave × Bool × Bool)),
      Noted Note.IsFill ((if stopped then quit .returned else rest) cmdl).log ↔
        stopped = false ∧ Noted Note.IsFill (rest cmdl).log := by
    intro stopped rest
    cases stopped with
    | false => simp
    | true => simp
  rw [quiet, quiet, decoded_fills notNet]
  cases new : run.mx6x with
  | true =>
      have : ¬ turn.decodingSuccess &&& 0x10 ≠ 0 := fun few => short ⟨new, few⟩
      simp [this]
  | false => simp

section NotMjpg
variable (notMjpg : cmdl.format ≠ .mjpg)
include notMjpg

theorem afterStart_fills (state : State) (turn : Turn) :
    Noted Note.IsFill (afterStart run state turn cmdl).log ↔
      turn.decodingSuccess ≠ 0 ∧
        if run.mx6x then turn.decodingSuccess &&& 0x10 ≠ 0
        else turn.notSufficientPsBuffer = false ∧ turn.notSufficientSliceBuffer = false ∧
          turn.indexFrameDisplay ≠ -1 ∧ turn.prescanresult = 0 ∧ cmdl.prescan = 1 ∧
          state.eos = false := by
  have index : displayIndex (run.config cmdl) state turn.toTurn = turn.indexFrameDisplay := by
    simp [displayIndex, notMjpg]
  rw [← index, ← leave_fills notNet state.eos state.frameId, afterStart,
    (formatIs_computes cmdl .mjpg).noted_next
      (quiet_of_tests fun tests => formatIs_keeps tests .mjpg)]
  refine (leave_computes run cmdl state turn).noted_bind.trans (or_iff_left ?_)
  rintro ⟨⟨leaving, eos, rotates⟩, _, fills⟩
  cases leaving with
  | again => simp at fills
  | stop => simp at fills
  | onward =>
      rw [(Computes.ask _).noted_next (by simp)] at fills
      exact quiet_of_tests (fun _ => collected_keeps _) fills

theorem turnBody_fills (state : State) (turn : Turn) :
    Noted Note.IsFill (turnBody run state turn cmdl).log ↔
      NeedsInput (run.config cmdl) state turn := by
  have jpeg : ¬ Noted Note.IsFill (jpegUnit run cmdl).log :=
    quiet_of_tests fun tests => jpegUnit_keeps run tests
  rw [turnBody, (throughRotator_computes cmdl).discard.noted_next
    (quiet_of_tests fun tests => (throughRotator_keeps tests).discard),
    (jpegUnit_false notMjpg).noted_next jpeg, if_neg Bool.false_ne_true,
    (Computes.pure state.eos).noted_next (by simp)]
  unfold NeedsInput
  cases turn.decStart with
  | jpegEos => simp
  | jpegBitEmpty =>
      rw [(decFillEos_computes cmdl _ _).noted_bind]
      exact iff_of_true (.inl (decFillEos_fills _ _)) (.inl rfl)
  | failure => simp
  | success =>
      rw [(decBusy_computes run cmdl _ _ _).noted_bind, decBusy_fills notMjpg]
      simp only [reduceCtorEq, false_or, true_and]
      by_cases busy : turn.decBusy = []
      · simp only [busy, ne_eq, not_true_eq_false, false_or, Transcode.decBusy, Option.some.injEq,
          exists_eq_left']
        by_cases started : startReturn turn.toTurn = .success
        · rw [if_neg (not_not_intro started), afterStart_fills notNet notMjpg]
          simp [started]
        · simp [started]
      · exact iff_of_true (.inl busy) (.inl busy)

theorem loop_fills (turns : List Turn) (state : State) :
    Noted Note.IsFill (loop run turns state cmdl).log ↔
      LoopRefills (run.config cmdl) turns state := by
  induction turns generalizing state with
  | nil => simp [loop, LoopRefills]
  | cons turn rest ih =>
      rw [loop, LoopRefills]
      cases live : state.ended with
      | true => simp
      | false =>
          rw [if_neg Bool.false_ne_true, (turnBody_computes run cmdl turn live).noted_bind,
            turnBody_fills notNet notMjpg]
          simp only [ih, true_and]

end NotMjpg
end NotNet
end Exact

/-! ## The set-up -/

/-- A call that is made for one format only. -/
def callFor (format std : Format) (one : SetupCall) : List SetupCall :=
  if format = std then [one] else []

/-- The calls behind the version that must succeed before the encoder is given the command
line. -/
def sourceCalls (format : Format) : List SetupCall :=
  [SetupCall.callocDec, .getPhyMem .bitstream, .getVirtMem] ++
    callFor format .avc (.getPhyMem .ps) ++
    [SetupCall.decoderOpen, .decFillBsbuffer, .decoderParse] ++
    callFor format .avc (.getPhyMem .slice) ++ callFor format .vp8 (.getPhyMem .vp8Mbparam) ++
    [SetupCall.decoderAllocateFramebuffer, .callocEnc, .getPhyMem .encBitstream, .encGetVirtMem]

/-- The run comes to where the encoder is given the command line. -/
def ReachesEncoder (run : Run) (format : Format) : Prop :=
  ∀ one ∈ .vpuInit :: .vpuGetVersionInfo :: sourceCalls format, run.succeeds one = true

theorem reachesEncoder_iff {run : Run} {format : Format} :
    ReachesEncoder run format ↔ run.succeeds .vpuInit = true ∧
      run.succeeds .vpuGetVersionInfo = true ∧
      ∀ one ∈ sourceCalls format, run.succeeds one = true := by
  simp only [ReachesEncoder, List.forall_mem_cons]

def encoderCalls : List SetupCall :=
  [.encoderOpen, .encoderConfigure, .encoderAllocateFramebuffer, .encoderFillHeaders]

def EntersLoop (run : Run) : Prop :=
  (∀ one ∈ encoderCalls, run.succeeds one = true) ∧
    run.encPicwidth ≤ run.srcPicwidth ∧ run.encPicheight ≤ run.srcPicheight

/-- The formats that a buffer is allocated for. -/
def Buffer.For (format : Format) : Buffer → Prop
  | .ps => format = .avc
  | .slice => format = .avc
  | .vp8Mbparam => format = .vp8
  | _ => True

/-- What the decoder's side may note where these are the format and the source. -/
def Note.Of (format : Format) (srcScheme : Scheme) : Note → Prop
  | .fill path _ => path = vpuReadPath srcScheme
  | .decision seen => seen = format
  | .get buffer => buffer.For format
  | .free _ => False

section Setup
variable {run : Run} {cmdl : CmdLine}

theorem call_then {β : Type} {one : SetupCall} {exit : Exit} {next : Unit → Transcoder β}
    {value : β} : ((call run one exit cmdl).andThen next).value = .ok value ↔
      run.succeeds one = true ∧ (next () cmdl).value = .ok value := by
  unfold call
  by_cases success : run.succeeds one = true
  · simp [success]
  · simp [success]

theorem call_value {one : SetupCall} {exit : Exit} :
    (call run one exit cmdl).value = .ok () ↔ run.succeeds one = true := by
  unfold call
  by_cases success : run.succeeds one = true
  · simp [success]
  · simp [success]

theorem ioGetPhyMem_then {β : Type} {buffer : Buffer} {exit : Exit} {next : Unit → Transcoder β}
    {value : β} : ((ioGetPhyMem run buffer exit cmdl).andThen next).value = .ok value ↔
      run.succeeds (.getPhyMem buffer) = true ∧ (next () cmdl).value = .ok value := by
  unfold ioGetPhyMem call
  by_cases success : run.succeeds (.getPhyMem buffer) = true
  · simp [success]
  · simp [success]

theorem ifFormat_getPhyMem_then {β : Type} {std : Format} {buffer : Buffer} {exit : Exit}
    {next : Unit → Transcoder β} {value : β} :
    ((ifFormat std (ioGetPhyMem run buffer exit) cmdl).andThen next).value = .ok value ↔
      (cmdl.format = std → run.succeeds (.getPhyMem buffer) = true) ∧
        (next () cmdl).value = .ok value := by
  unfold ifFormat ioGetPhyMem call formatIs
  by_cases same : cmdl.format = std
  · by_cases success : run.succeeds (.getPhyMem buffer) = true
    · simp [same, success]
    · simp [same, success]
  · simp [same]

theorem decoderSetup_value : (decoderSetup run cmdl).value = .ok () ↔
    ∀ one ∈ sourceCalls cmdl.format, run.succeeds one = true := by
  simp only [decoderSetup, bind_apply, change_apply, ask_apply, decFillBsbuffer, note_apply,
    andThen_ok, call_then, ioGetPhyMem_then, ifFormat_getPhyMem_then, call_value, sourceCalls,
    callFor]
  by_cases avc : cmdl.format = .avc
  · simp [avc]
  by_cases vp8 : cmdl.format = .vp8
  · simp [vp8]
  · simp [avc, vp8]

end Setup

section SetupKeeps
variable {run : Run} {format : Format} {srcScheme : Scheme}

def SameSource (format : Format) (srcScheme : Scheme) (cmdl : CmdLine) : Prop :=
  cmdl.format = format ∧ cmdl.srcScheme = srcScheme

theorem ioGetPhyMem_keeps {inv : CmdLine → Prop} {buffer : Buffer} (exit : Exit)
    (wanted : buffer.For format) :
    Keeps inv (Note.Of format srcScheme) (ioGetPhyMem run buffer exit) :=
  (call_keeps run _ exit).bind fun _ _ => Keeps.note fun _ _ => wanted

theorem ifFormat_keeps (std : Format) {program : Transcoder Unit}
    (kept : format = std → Keeps (SameSource format srcScheme) (Note.Of format srcScheme) program) :
    Keeps (SameSource format srcScheme) (Note.Of format srcScheme) (ifFormat std program) := by
  refine (formatIs_keeps (fun _ same => same.1) std).bind fun tested given => ?_
  refine Keeps.ite (fun yes => kept ?_) fun _ => Keeps.pure ()
  obtain ⟨cmdl, same, value⟩ := given
  rw [← same.1]
  simpa [formatIs, yes] using value

theorem decoderSetup_state {cmdl : CmdLine} (done : (decoderSetup run cmdl).value = .ok ()) :
    (decoderSetup run cmdl).state = { cmdl with dstScheme := .v4l2 } := by
  simp only [decoderSetup_value, sourceCalls, callFor] at done
  by_cases avc : cmdl.format = .avc
  · simp only [avc, if_true] at done
    simp [decoderSetup, ioGetPhyMem, call, ifFormat, formatIs, decFillBsbuffer, avc, done]
  by_cases vp8 : cmdl.format = .vp8
  · simp only [vp8, if_true] at done
    simp [decoderSetup, ioGetPhyMem, call, ifFormat, formatIs, decFillBsbuffer, vp8, done]
  · simp only [avc, vp8, if_false] at done
    simp [decoderSetup, ioGetPhyMem, call, ifFormat, formatIs, decFillBsbuffer, avc, vp8, done]

theorem decoderSetup_keeps :
    Keeps (SameSource format srcScheme) (Note.Of format srcScheme) (decoderSetup run) := by
  have wanted : ∀ buffer : Buffer, buffer.ofSource = false → buffer.For format := by
    intro buffer other
    cases buffer with
    | bitstream => trivial
    | encBitstream => trivial
    | encScratch => trivial
    | ps => cases other
    | slice => cases other
    | vp8Mbparam => cases other
  refine (call_keeps run _ _).bind fun _ _ => ?_
  refine Keeps.bind (ioGetPhyMem_keeps _ (wanted .bitstream rfl)) fun _ _ => ?_
  refine (call_keeps run _ _).bind fun _ _ => ?_
  refine Keeps.bind (Keeps.change fun _ same => same) fun _ _ => ?_
  refine Keeps.bind (ifFormat_keeps .avc fun avc => ioGetPhyMem_keeps _ avc) fun _ _ => ?_
  refine (call_keeps run _ _).bind fun _ _ => ?_
  refine (Keeps.ask _).bind fun net _ => ?_
  refine (Keeps.note fun cmdl same => ?_).bind fun _ _ => ?_
  · exact congrArg vpuReadPath same.2
  refine (call_keeps run _ _).bind fun _ _ => ?_
  refine (call_keeps run _ _).bind fun _ _ => ?_
  refine Keeps.bind (ifFormat_keeps .avc fun avc => ioGetPhyMem_keeps _ avc) fun _ _ => ?_
  refine Keeps.bind (ifFormat_keeps .vp8 fun vp8 => ioGetPhyMem_keeps _ vp8) fun _ _ => ?_
  refine (call_keeps run _ _).bind fun _ _ => ?_
  refine (call_keeps run _ _).bind fun _ _ => ?_
  refine Keeps.bind (ioGetPhyMem_keeps _ (wanted .encBitstream rfl)) fun _ _ => ?_
  exact call_keeps run _ _

end SetupKeeps

/-! ## From the encoder's copy of the command line on -/

section EncoderHalf
variable {run : Run} {cmdl : CmdLine}

theorem afterHeaders_keeps {inv : CmdLine → Prop} {good : Note → Prop}
    (tests : ∀ cmdl, inv cmdl → good (.decision cmdl.format))
    (fills : ∀ cmdl size, inv cmdl → good (.fill (vpuReadPath cmdl.srcScheme) size)) :
    Keeps inv good (afterHeaders run) := by
  refine Keeps.ite (fun _ => Keeps.quit _) fun _ => Keeps.ite (fun _ => Keeps.quit _) fun _ => ?_
  refine (formatIs_keeps tests .mjpg).discard.bind fun _ _ => ?_
  refine (throughRotator_keeps tests).discard.bind fun _ _ => ?_
  exact loop_keeps run tests fills run.turns .start

theorem afterHeaders_fills (notNet : cmdl.srcScheme ≠ .net) (notMjpg : cmdl.format ≠ .mjpg) :
    Noted Note.IsFill (afterHeaders run cmdl).log ↔
      run.encPicwidth ≤ run.srcPicwidth ∧ run.encPicheight ≤ run.srcPicheight ∧
        LoopRefills (run.config cmdl) run.turns .start := by
  unfold afterHeaders
  by_cases wide : run.encPicwidth > run.srcPicwidth
  · rw [if_pos wide]
    exact iff_of_false (by simp) fun fills => absurd fills.1 (by omega)
  rw [if_neg wide]
  by_cases high : run.encPicheight > run.srcPicheight
  · rw [if_pos high]
    exact iff_of_false (by simp) fun fills => absurd fills.2.1 (by omega)
  rw [if_neg high, (formatIs_computes cmdl .mjpg).discard.noted_next
      (quiet_of_tests fun tests => (formatIs_keeps tests .mjpg).discard),
    (throughRotator_computes cmdl).discard.noted_next
      (quiet_of_tests fun tests => (throughRotator_keeps tests).discard),
    loop_fills notNet notMjpg]
  exact ⟨fun fills => ⟨by omega, by omega, fills⟩, fun fills => fills.2.2⟩

/-- A run that comes to the loop has tested the format. -/
theorem afterHeaders_tests {state : State} (entered : (afterHeaders run cmdl).value = .ok state) :
    .decision cmdl.format ∈ (afterHeaders run cmdl).log := by
  unfold afterHeaders at entered ⊢
  split
  · rename_i wide
    simp [wide] at entered
  split
  · rename_i high
    simp [high] at entered
  · simp [formatIs]


/-- The rest of `transcode_start` runs with the format of the encoder and no source; there
is no scratch buffer for this format. -/
theorem encoderHalf_done (done : ∀ one ∈ encoderCalls, run.succeeds one = true) :
    encoderHalf run cmdl = afterHeaders run { cmdl with format := .avc, srcScheme := .none } := by
  simp only [encoderCalls, List.forall_mem_cons] at done
  simp [encoderHalf, giveCmdl, encoderSetup, ifScratch, encFormatIs, transcodeStart, call, done]

theorem encoderHalf_failed (failed : ¬ ∀ one ∈ encoderCalls, run.succeeds one = true) :
    ∃ after exit, encoderHalf run cmdl = ⟨[], after, .error exit⟩ ∧ after.format = .avc := by
  simp only [encoderHalf, giveCmdl, encoderSetup, ifScratch, encFormatIs, transcodeStart, call]
  by_cases opened : run.succeeds .encoderOpen = true
  · by_cases configured : run.succeeds .encoderConfigure = true
    · by_cases allocated : run.succeeds .encoderAllocateFramebuffer = true
      · have headers : ¬ run.succeeds .encoderFillHeaders = true := by
          intro headers
          exact failed (by simp [encoderCalls, opened, configured, allocated, headers])
        exact ⟨{ cmdl with format := .avc }, .returned,
          by simp [opened, configured, allocated, headers], rfl⟩
      · exact ⟨{ cmdl with format := .avc }, .err3,
          by simp [opened, configured, allocated], rfl⟩
    · exact ⟨{ cmdl with format := .avc }, .err3, by simp [opened, configured], rfl⟩
  · exact ⟨{ cmdl with format := .avc }, .err2, by simp [opened], rfl⟩

def loopSettings (cmdl : CmdLine) : CmdLine :=
  { cmdl with format := .avc, srcScheme := .none, dstScheme := .v4l2 }

theorem encoderHalf_notes : (∀ seen ∈ (encoderHalf run cmdl).log, Note.Of .avc .none seen) ∧
    (encoderHalf run cmdl).state.format = .avc := by
  by_cases done : ∀ one ∈ encoderCalls, run.succeeds one = true
  · rw [encoderHalf_done done]
    have kept : Keeps (SameSource .avc .none) (Note.Of .avc .none) (afterHeaders run) :=
      afterHeaders_keeps (fun _ same => same.1) fun _ _ same => congrArg vpuReadPath same.2
    obtain ⟨logged, same⟩ := kept { cmdl with format := .avc, srcScheme := .none } ⟨rfl, rfl⟩
    exact ⟨logged, same.1⟩
  · obtain ⟨after, exit, failed, avc⟩ := @encoderHalf_failed run cmdl done
    rw [failed]
    exact ⟨by simp, avc⟩

theorem encoderHalf_tests {state : State} (entered : (encoderHalf run cmdl).value = .ok state) :
    .decision .avc ∈ (encoderHalf run cmdl).log := by
  by_cases done : ∀ one ∈ encoderCalls, run.succeeds one = true
  · rw [encoderHalf_done done] at entered ⊢
    exact afterHeaders_tests entered
  · obtain ⟨after, exit, failed, _⟩ := @encoderHalf_failed run cmdl done
    simp [failed] at entered

theorem encoderHalf_fills :
    Noted Note.IsFill (encoderHalf run { cmdl with dstScheme := .v4l2 }).log ↔
      EntersLoop run ∧ LoopRefills (run.config (loopSettings cmdl)) run.turns .start := by
  rw [EntersLoop]
  by_cases done : ∀ one ∈ encoderCalls, run.succeeds one = true
  · rw [encoderHalf_done done, afterHeaders_fills (by simp) (by simp), and_iff_right done,
      and_assoc]
    rfl
  · obtain ⟨after, exit, failed, _⟩ := @encoderHalf_failed run { cmdl with dstScheme := .v4l2 } done
    rw [failed]
    exact iff_of_false (by simp) fun fills => done fills.1.1

end EncoderHalf

/-! ## The clean-up -/

section CleanUp
variable {run : Run} {cmdl : CmdLine}

theorem cleanUpErr_log : (cleanUpErr cmdl).log =
    Note.decision cmdl.format ::
      (if cmdl.format = .avc then [Note.free .slice, .free .ps] else []) ++
        Note.decision cmdl.format ::
          (if cmdl.format = .vp8 then [Note.free .vp8Mbparam] else []) ++
            [Note.free .bitstream] := by
  by_cases avc : cmdl.format = .avc
  · simp [cleanUpErr, ifFormat, formatIs, ioFreePhyMem, avc]
  by_cases vp8 : cmdl.format = .vp8
  · simp [cleanUpErr, ifFormat, formatIs, ioFreePhyMem, vp8]
  · simp [cleanUpErr, ifFormat, formatIs, ioFreePhyMem, avc, vp8]

/-- Wherever the clean-up is entered, it ends with the decoder's part. -/
theorem cleanUp_log (value : Except Exit State) : ∃ freed : List Buffer,
    (cleanUp run value cmdl).log = freed.map .free ++ (cleanUpErr cmdl).log := by
  have encoder : ∃ freed : List Buffer,
      (cleanUpErr2 run cmdl).log = freed.map .free ++ (cleanUpErr cmdl).log := by
    unfold cleanUpErr2 ifScratch encFormatIs ioFreePhyMem
    simp only [bind_apply, ask_apply, andThen_ok]
    split
    · exact ⟨[.encScratch, .encBitstream], by simp⟩
    · exact ⟨[.encBitstream], by simp⟩
  cases value with
  | ok state => exact encoder
  | error exit =>
      cases exit with
      | err => exact ⟨[], rfl⟩
      | err1 => exact ⟨[], rfl⟩
      | err2 => exact encoder
      | err3 => exact encoder
      | returned => exact encoder

theorem cleanUp_tests (value : Except Exit State) :
    .decision cmdl.format ∈ (cleanUp run value cmdl).log := by
  obtain ⟨freed, log⟩ := @cleanUp_log run cmdl value
  simp [log, cleanUpErr_log]

theorem cleanUp_notes (value : Except Exit State) {seen : Note}
    (mem : seen ∈ (cleanUp run value cmdl).log) :
    seen = .decision cmdl.format ∨ ∃ buffer, seen = .free buffer := by
  obtain ⟨freed, log⟩ := @cleanUp_log run cmdl value
  rw [log, cleanUpErr_log] at mem
  grind

theorem cleanUp_frees (value : Except Exit State) {buffer : Buffer}
    (source : buffer.ofSource = true) (wanted : buffer.For cmdl.format) :
    .free buffer ∈ (cleanUp run value cmdl).log := by
  obtain ⟨freed, log⟩ := @cleanUp_log run cmdl value
  rw [log, cleanUpErr_log]
  refine List.mem_append_right _ ?_
  cases buffer with
  | ps => simp [show cmdl.format = .avc from wanted]
  | slice => simp [show cmdl.format = .avc from wanted]
  | vp8Mbparam => simp [show cmdl.format = .vp8 from wanted]
  | bitstream => cases source
  | encBitstream => cases source
  | encScratch => cases source

end CleanUp

/-! ## When the source is left alone -/

/-- Every fill reads where the command line says, every test of the format sees that of the
command line, and each buffer allocated for it is released before the function returns. -/
structure KeepsSource (cmdl : CmdLine) (report : Report) : Prop where
  fills : ∀ path size, .fill path size ∈ report.log → path = vpuReadPath cmdl.srcScheme
  decisions : ∀ seen, .decision seen ∈ report.log → seen = cmdl.format
  released : report.finished = true → ∀ buffer : Buffer, buffer.ofSource = true →
    .get buffer ∈ report.log → .free buffer ∈ report.log

section Main
variable {run : Run} {cmdl : CmdLine}

theorem goesOn_ok {value : Except Exit State} (going : goesOn value = true) :
    ∃ state, value = .ok state := by
  cases value with
  | error exit => cases going
  | ok state => exact ⟨state, rfl⟩

theorem transcodeTest_body (began : run.succeeds .vpuInit = true)
    (versioned : run.succeeds .vpuGetVersionInfo = true) :
    transcodeTest run cmdl =
      if goesOn (transcodeBody run cmdl).value then ⟨(transcodeBody run cmdl).log, false⟩
      else ⟨(transcodeBody run cmdl).log ++
        (cleanUp run (transcodeBody run cmdl).value (transcodeBody run cmdl).state).log, true⟩ := by
  unfold transcodeTest
  rw [if_neg (by simp [began]), if_neg (by simp [versioned])]

/-- A run whose body notes only what the command line says keeps the source. -/
theorem keepsSource_of_notes (began : run.succeeds .vpuInit = true)
    (versioned : run.succeeds .vpuGetVersionInfo = true)
    (notes : ∀ seen ∈ (transcodeBody run cmdl).log, Note.Of cmdl.format cmdl.srcScheme seen)
    (same : (transcodeBody run cmdl).state.format = cmdl.format) :
    KeepsSource cmdl (transcodeTest run cmdl) := by
  rw [transcodeTest_body began versioned]
  split
  · exact ⟨fun path size mem => notes _ mem, fun seen mem => notes _ mem, fun done => by cases done⟩
  · refine ⟨?_, ?_, ?_⟩
    · intro path size mem
      rcases List.mem_append.mp mem with mem | mem
      · exact notes _ mem
      · obtain test | ⟨_, free⟩ := cleanUp_notes _ mem
        · cases test
        · cases free
    · intro seen mem
      rcases List.mem_append.mp mem with mem | mem
      · exact notes _ mem
      · obtain test | ⟨_, free⟩ := cleanUp_notes _ mem
        · rw [← same]
          injection test
        · cases free
    · intro _ buffer source mem
      refine List.mem_append_right _ (cleanUp_frees _ source ?_)
      rw [same]
      rcases List.mem_append.mp mem with mem | mem
      · exact notes _ mem
      · obtain test | ⟨_, free⟩ := cleanUp_notes _ mem
        · cases test
        · cases free


theorem transcodeBody_failed {exit : Exit} (failed : (decoderSetup run cmdl).value = .error exit) :
    transcodeBody run cmdl =
      ⟨(decoderSetup run cmdl).log, (decoderSetup run cmdl).state, .error exit⟩ := by
  rw [transcodeBody, bind_apply]
  generalize decoderSetup run cmdl = setup at failed ⊢
  obtain ⟨log, state, value⟩ := setup
  obtain rfl : value = _ := failed
  rfl

theorem transcodeBody_done (done : (decoderSetup run cmdl).value = .ok ()) :
    transcodeBody run cmdl =
      let half := encoderHalf run { cmdl with dstScheme := .v4l2 }
      ⟨(decoderSetup run cmdl).log ++ half.log, half.state, half.value⟩ := by
  rw [← decoderSetup_state done, transcodeBody, bind_apply]
  generalize decoderSetup run cmdl = setup at done ⊢
  obtain ⟨log, state, value⟩ := setup
  obtain rfl : value = _ := done
  rfl

/-- A set-up that ends before the encoder is given the command line keeps the source. -/
theorem keepsSource_unreached (early : ¬ ReachesEncoder run cmdl.format) :
    KeepsSource cmdl (transcodeTest run cmdl) := by
  have quiet : KeepsSource cmdl ⟨[], true⟩ := by
    refine ⟨?_, ?_, ?_⟩
    · intro path size mem
      cases mem
    · intro seen mem
      cases mem
    · intro _ buffer _ mem
      cases mem
  by_cases began : run.succeeds .vpuInit = true
  · by_cases versioned : run.succeeds .vpuGetVersionInfo = true
    · obtain ⟨exit, failed⟩ : ∃ exit, (decoderSetup run cmdl).value = .error exit := by
        cases value : (decoderSetup run cmdl).value with
        | error exit => exact ⟨exit, rfl⟩
        | ok done =>
            exact absurd (reachesEncoder_iff.mpr
              ⟨began, versioned, decoderSetup_value.mp value⟩) early
      obtain ⟨logged, same⟩ := @decoderSetup_keeps run _ _ cmdl ⟨rfl, rfl⟩
      refine keepsSource_of_notes began versioned ?_ ?_
      · rwa [transcodeBody_failed failed]
      · rw [transcodeBody_failed failed]
        exact same.1
    · rw [transcodeTest, if_neg (by simp [began]), if_pos (by simpa using versioned)]
      exact quiet
  · rw [transcodeTest, if_pos (by simpa using began)]
    exact quiet

/-- The run comes to a `dec_fill_bsbuffer` in `transcode_start`. -/
def Refills (run : Run) (cmdl : CmdLine) : Prop :=
  EntersLoop run ∧ LoopRefills (run.config (loopSettings cmdl)) run.turns .start

theorem mem_report (began : run.succeeds .vpuInit = true)
    (versioned : run.succeeds .vpuGetVersionInfo = true) {seen : Note}
    (mem : seen ∈ (transcodeBody run cmdl).log) : seen ∈ (transcodeTest run cmdl).log := by
  rw [transcodeTest_body began versioned]
  split
  · exact mem
  · exact List.mem_append_left _ mem

/-- Behind the encoder's copy of the command line some test sees the encoder's format. -/
theorem decision_avc (reached : ReachesEncoder run cmdl.format) :
    .decision .avc ∈ (transcodeTest run cmdl).log := by
  obtain ⟨began, versioned, sourced⟩ := reachesEncoder_iff.mp reached
  have body := transcodeBody_done (decoderSetup_value.mpr sourced)
  rw [transcodeTest_body began versioned]
  split
  · rename_i going
    obtain ⟨state, entered⟩ := goesOn_ok going
    rw [body] at entered ⊢
    exact List.mem_append_right _ (encoderHalf_tests entered)
  · have avc : (transcodeBody run cmdl).state.format = .avc := by
      rw [body]
      exact encoderHalf_notes.2
    rw [← avc]
    exact List.mem_append_right _ (cleanUp_tests _)

theorem keepsSource_reached (reached : ReachesEncoder run cmdl.format) (avc : cmdl.format = .avc)
    (unfilled : cmdl.srcScheme ≠ .net ∨ ¬ Refills run cmdl) :
    KeepsSource cmdl (transcodeTest run cmdl) := by
  obtain ⟨began, versioned, sourced⟩ := reachesEncoder_iff.mp reached
  have body := transcodeBody_done (decoderSetup_value.mpr sourced)
  obtain ⟨logged, _⟩ := @decoderSetup_keeps run _ _ cmdl ⟨rfl, rfl⟩
  obtain ⟨loggedHalf, sameHalf⟩ := @encoderHalf_notes run { cmdl with dstScheme := .v4l2 }
  refine keepsSource_of_notes began versioned ?_ ?_
  · rw [body]
    intro seen mem
    rcases List.mem_append.mp mem with mem | mem
    · exact logged seen mem
    · have noted := loggedHalf seen mem
      cases seen with
      | decision format => exact noted.trans avc.symm
      | get buffer => exact avc ▸ noted
      | free buffer => cases noted
      | fill path size =>
          rcases unfilled with other | unfilled
          · exact noted.trans (if_neg other).symm
          · exact absurd (encoderHalf_fills.mp ⟨_, mem, trivial⟩) unfilled
  · rw [body]
    exact sameHalf.trans avc.symm

/-- A network source is filled from no network in the loop. -/
theorem refills_disturb (reached : ReachesEncoder run cmdl.format)
    (kept : KeepsSource cmdl (transcodeTest run cmdl)) (net : cmdl.srcScheme = .net) :
    ¬ Refills run cmdl := by
  intro refills
  obtain ⟨began, versioned, sourced⟩ := reachesEncoder_iff.mp reached
  obtain ⟨seen, mem, fill⟩ := encoderHalf_fills.mpr refills
  have noted := encoderHalf_notes.1 seen mem
  cases seen with
  | decision format => cases fill
  | get buffer => cases fill
  | free buffer => cases fill
  | fill path size =>
      have inBody : .fill path size ∈ (transcodeBody run cmdl).log := by
        rw [transcodeBody_done (decoderSetup_value.mpr sourced)]
        exact List.mem_append_right _ mem
      have read := kept.fills path size (mem_report began versioned inBody)
      rw [show path = .freadn from noted, net] at read
      cases read

/-- `transcode_test` leaves the source alone exactly where the source is H.264 or the set-up
ends before the encoder is given the command line, and the source is not the network or the
run comes to no fill after that. -/
theorem transcodeTest_keepsSource_iff (run : Run) (cmdl : CmdLine) :
    KeepsSource cmdl (transcodeTest run cmdl) ↔
      ¬ ReachesEncoder run cmdl.format ∨
        cmdl.format = .avc ∧ (cmdl.srcScheme ≠ .net ∨ ¬ Refills run cmdl) := by
  by_cases reached : ReachesEncoder run cmdl.format
  · constructor
    · intro kept
      refine .inr ⟨(kept.decisions .avc (decision_avc reached)).symm, ?_⟩
      by_cases net : cmdl.srcScheme = .net
      · exact .inr (refills_disturb reached kept net)
      · exact .inl net
    · rintro (early | ⟨avc, unfilled⟩)
      · exact absurd reached early
      · exact keepsSource_reached reached avc unfilled
  · exact iff_of_true (keepsSource_unreached reached) (.inl reached)

end Main

/-- A run in which every call succeeds and the decoder has no picture after the first. -/
def fineRun : Run where
  succeeds := fun _ => true
  mx6x := true
  regfbcount := 4
  mp4DataPartitionEnable := false
  ringBufferEnable := true
  encPicwidth := 1280
  encPicheight := 720
  srcPicwidth := 1280
  srcPicheight := 720
  turns := [⟨Transcode.pictureTurn, 0, 0⟩,
    ⟨{ Transcode.pictureTurn with indexFrameDisplay := -1 }, -1, 0⟩]

def fileCmdLine (format : Format) : CmdLine := ⟨format, .file, .file, false, false, 0, 0⟩

/-- The buffer of a VP8 file is not released: the clean-up sees H.264. -/
theorem transcodeTest_leaks_vp8 :
    let report := transcodeTest fineRun (fileCmdLine .vp8)
    report.finished = true ∧ .get .vp8Mbparam ∈ report.log ∧ .free .vp8Mbparam ∉ report.log ∧
      .decision .avc ∈ report.log ∧ ¬ KeepsSource (fileCmdLine .vp8) report := by
  intro report
  have finished : report.finished = true := by decide +kernel
  have got : .get .vp8Mbparam ∈ report.log := by decide +kernel
  have leaked : .free .vp8Mbparam ∉ report.log := by decide +kernel
  have tested : .decision .avc ∈ report.log := by decide +kernel
  refine ⟨finished, got, leaked, tested, ?_⟩
  intro keeps
  exact leaked (keeps.released finished .vp8Mbparam rfl got)

/-- An H.264 stream from the network is read from it once, and then with `freadn`. -/
example : (transcodeTest fineRun { fileCmdLine .avc with srcScheme := .net }).log.filter
    (fun seen => seen matches .fill _ _) =
      [.fill .udpRecv 1024, .fill .freadn streamFillSize, .fill .freadn streamFillSize] := by
  decide +kernel

end ImxTest.Vpu.TranscodeTest
