import ImxTest.Lib.Traced
import ImxTest.Vpu.Basic
import ImxTest.Vpu.Transcode

/-!
# `transcode_test` and the command line its two sides share

Decoder and encoder of the transcoder point at one `struct cmd_line`.  The model runs
`transcode_test` over the answers of the library calls, with the command line as its state,
and notes each `dec_fill_bsbuffer`, each test of `dec->cmdl->format` and the physical
buffers.  Without the notes, a turn of its loop is the step of the loop model.
-/

set_option autoImplicit false

namespace ImxTest.Vpu.TranscodeTest

open ImxTest.Lib.Traced
open ImxTest.Vpu.Transcode (Config State RetCode displayIndex startReturn startCalls collect
  transcodeStep)

/-! ## The command line and what is noted -/

/-- `enum CodStd`; `-f` takes any number. -/
inductive Format where
  | mpeg4 | h263 | avc | vc1 | mpeg2 | div3 | rv | mjpg | avs | vp8
  | other (number : Int)
  deriving DecidableEq, Repr

/-- The `PATH_` constants; `none` is the -1 of `transcode_start`. -/
inductive Scheme where
  | v4l2 | file | net | ipu | g2d | none
  deriving DecidableEq, Repr

/-- The fields of `struct cmd_line` that `transcode_test` and `transcode_start` read. -/
structure CmdLine where
  format : Format
  srcScheme : Scheme
  dstScheme : Scheme
  rotEn : Bool
  deringEn : Bool
  count : Int
  prescan : Int
  deriving DecidableEq, Repr

/-- The two ways of `vpu_read`. -/
inductive ReadPath where
  | udpRecv
  | freadn
  deriving DecidableEq, Repr

def vpuReadPath (srcScheme : Scheme) : ReadPath :=
  if srcScheme = .net then .udpRecv else .freadn

inductive Buffer where
  | bitstream
  | ps
  | slice
  | vp8Mbparam
  | encBitstream
  | encScratch
  deriving DecidableEq, Repr

def Buffer.ofSource : Buffer → Bool
  | .ps => true
  | .slice => true
  | .vp8Mbparam => true
  | _ => false

inductive Note where
  /-- A call of `dec_fill_bsbuffer`, with the path of its `vpu_read` and its size. -/
  | fill (path : ReadPath) (size : Nat)
  /-- A test of `dec->cmdl->format`, with the format it sees. -/
  | decision (seen : Format)
  /-- `IOGetPhyMem` succeeds. -/
  | get (buffer : Buffer)
  /-- `IOFreePhyMem`. -/
  | free (buffer : Buffer)
  deriving DecidableEq, Repr

/-- The labels of `transcode_test`, and the error returns of `transcode_start`. -/
inductive Exit where
  | err
  | err1
  | err2
  | err3
  | returned
  deriving DecidableEq, Repr

abbrev Transcoder : Type → Type := Program CmdLine Note Exit

/-! ## What the library answers -/

inductive SetupCall where
  | vpuInit
  | vpuGetVersionInfo
  | callocDec
  | getPhyMem (buffer : Buffer)
  | getVirtMem
  | decoderOpen
  | decFillBsbuffer
  | decoderParse
  | decoderAllocateFramebuffer
  | callocEnc
  | encGetVirtMem
  | encoderOpen
  | encoderConfigure
  | encoderAllocateFramebuffer
  | encoderFillHeaders
  deriving DecidableEq, Repr

/-- One turn of the loop, with the rest of `outinfo` that decides about a format test. -/
structure Turn extends Transcode.Turn where
  indexFrameDecoded : Int
  numOfErrMBs : Int
  deriving DecidableEq, Repr

/-- What the library, the machine and the input do in a run. -/
structure Run where
  succeeds : SetupCall → Bool
  /-- `cpu_is_mx6x`. -/
  mx6x : Bool
  regfbcount : Nat
  mp4DataPartitionEnable : Bool
  ringBufferEnable : Bool
  encPicwidth : Int
  encPicheight : Int
  srcPicwidth : Int
  srcPicheight : Int
  turns : List Turn

/-! ## The programs -/

def call (run : Run) (one : SetupCall) (exit : Exit) : Transcoder Unit :=
  if run.succeeds one then pure () else quit exit

def ioGetPhyMem (run : Run) (buffer : Buffer) (exit : Exit) : Transcoder Unit := do
  call run (.getPhyMem buffer) exit
  note fun _ => .get buffer

def ioFreePhyMem (buffer : Buffer) : Transcoder Unit := note fun _ => .free buffer

def formatIs (std : Format) : Transcoder Bool := do
  note fun cmdl => .decision cmdl.format
  ask fun cmdl => cmdl.format == std

/-- `if (cmdl->format == std) { program }`. -/
def ifFormat (std : Format) (program : Transcoder Unit) : Transcoder Unit := do
  let same ← formatIs std
  if same then program else pure ()

def decFillBsbuffer (size : Nat) : Transcoder Unit :=
  note fun cmdl => .fill (vpuReadPath cmdl.srcScheme) size

/-- `dec_fill_bsbuffer` with the value that it leaves in `eos`, if it does not fail. -/
def decFillEos (size : Nat) (answer : Option Bool) : Transcoder Bool := do
  decFillBsbuffer size
  answer.elim (quit .returned) pure

def decoderSetup (run : Run) : Transcoder Unit := do
  call run .callocDec .err
  ioGetPhyMem run .bitstream .err
  call run .getVirtMem .err
  change fun cmdl => { cmdl with dstScheme := .v4l2 }
  ifFormat .avc (ioGetPhyMem run .ps .err)
  call run .decoderOpen .err
  let net ← ask fun cmdl => cmdl.srcScheme == .net
  decFillBsbuffer (if net then 1024 else 0)
  call run .decFillBsbuffer .err1
  call run .decoderParse .err1
  ifFormat .avc (ioGetPhyMem run .slice .err1)
  ifFormat .vp8 (ioGetPhyMem run .vp8Mbparam .err1)
  call run .decoderAllocateFramebuffer .err1
  call run .callocEnc .err1
  ioGetPhyMem run .encBitstream .err2
  call run .encGetVirtMem .err2

/-- `enc->cmdl->format`, on behalf of the encoder. -/
def encFormatIs (std : Format) : Transcoder Bool := ask fun cmdl => cmdl.format == std

/-- What concerns the scratch buffer of the encoder, which is for MPEG-4 on the mx6x. -/
def ifScratch (run : Run) (program : Transcoder Unit) : Transcoder Unit := do
  let mpeg4 ← encFormatIs .mpeg4
  if run.mx6x && mpeg4 && run.mp4DataPartitionEnable then program else pure ()

/-- The encoder is given the command line of the decoder and writes its format there. -/
def giveCmdl : Transcoder Unit := change fun cmdl => { cmdl with format := .avc }

def encoderSetup (run : Run) : Transcoder Unit := do
  call run .encoderOpen .err2
  call run .encoderConfigure .err3
  ifScratch run (ioGetPhyMem run .encScratch .err3)
  call run .encoderAllocateFramebuffer .err3

section Loop
variable (run : Run)

@[simps]
def Run.config (cmdl : CmdLine) : Config where
  mx6x := run.mx6x
  mjpg := cmdl.format == .mjpg
  prescan := cmdl.prescan
  regfbcount := run.regfbcount
  count := cmdl.count
  net := cmdl.srcScheme == .net
  v4l2 := cmdl.dstScheme == .v4l2
  ringBufferEnable := run.ringBufferEnable

/-- `cpu_is_mx6x() && (dec->cmdl->format == STD_MJPG)`. -/
def jpegUnit : Transcoder Bool := if run.mx6x then formatIs .mjpg else pure false

/-- `rot_en || dering_en || tiled2LinearEnable || (dec->cmdl->format == STD_MJPG)`, where
`transcode_test` clears `tiled2LinearEnable`. -/
def throughRotator : Transcoder Bool := do
  let turned ← ask fun cmdl => cmdl.rotEn || cmdl.deringEn
  if turned then pure true else formatIs .mjpg

def decBusy : List (Option Bool) → Nat → Bool → Transcoder Bool
  | [], _, eos => pure eos
  | answer :: rest, loopId, eos => do
      let unit ← jpegUnit run
      let eos ← (if unit then pure eos else decFillEos streamFillSize answer)
      if loopId = 50 then quit .returned else decBusy rest (loopId + 1) eos

/-- The field order is read off by the format; which one it is matters to the display only. -/
def fieldOrder (turn : Turn) : Transcoder Unit :=
  if 0 ≤ turn.indexFrameDecoded then discard (formatIs .vc1) else pure ()

/-- The prescan found too little in the bitstream buffer. -/
def prescanFill (eos : Bool) (turn : Turn) : Transcoder (Transcode.Leave × Bool) :=
  if eos then pure (.stop, eos)
  else do
    let net ← ask fun cmdl => cmdl.srcScheme == .net
    let eos ← decFillEos (if net then 1000 else 0) turn.fillPrescan
    pure (if eos then .stop else .again, eos)

def display (turn : Turn) : Transcoder Bool := do
  discard throughRotator
  let v4l2 ← ask fun cmdl => cmdl.dstScheme == .v4l2
  if v4l2 then
    if turn.putFails then quit .returned
    else do
      discard (formatIs .mjpg)
      formatIs .mjpg
  else do
    discard (formatIs .mjpg)
    pure false

def errMbs (turn : Turn) : Transcoder Unit :=
  if turn.numOfErrMBs ≠ 0 then discard (jpegUnit run) else pure ()

/-- The loop body from the display on to the collection of the encoder's output. -/
def shown (eos : Bool) (frameId : Nat) (turn : Turn) :
    Transcoder (Transcode.Leave × Bool × Bool) := do
  let rotates ← display turn
  errMbs run turn
  let count ← ask fun cmdl => cmdl.count
  if count ≠ 0 ∧ (frameId : Int) ≥ count then pure (.stop, eos, false)
  else do
    let net ← ask fun cmdl => cmdl.srcScheme == .net
    let eos ← (if net then decFillEos streamFillSize turn.fillNet else pure eos)
    pure (.onward, eos, rotates)

/-- The loop body behind the tests for errors and for the buffers of the decoder. -/
def decoded (eos : Bool) (frameId : Nat) (index : Int) (turn : Turn) :
    Transcoder (Transcode.Leave × Bool × Bool) := do
  fieldOrder turn
  let config ← ask run.config
  -- decodefinish
  if index = -1 ∨
      (index > run.regfbcount ∧ turn.prescanresult ≠ 0 ∧ run.mx6x = false) then
    pure (.stop, eos, false)
  else if run.mx6x = false ∧ turn.prescanresult = 0 ∧ config.prescanEnable = 1 then do
    let (leaving, eos) ← prescanFill eos turn
    pure (leaving, eos, false)
  else if turn.quitflag then pure (.stop, eos, false)
  else if index = -3 ∨ index = -2 then do
    discard (formatIs .mjpg)
    pure (.again, eos, false)
  else shown run eos frameId turn

def leave (eos : Bool) (frameId : Nat) (index : Int) (turn : Turn) :
    Transcoder (Transcode.Leave × Bool × Bool) :=
  if turn.decodingSuccess = 0 then
    pure (if turn.quitflag then .stop else .again, eos, false)
  else if run.mx6x ∧ turn.decodingSuccess &&& 0x10 ≠ 0 then do
    let eos ← decFillEos 0 turn.fillRollback
    pure (if turn.quitflag then .stop else .again, eos, false)
  else if turn.notSufficientPsBuffer then quit .returned
  else if turn.notSufficientSliceBuffer then quit .returned
  else decoded run eos frameId index turn

def afterStart (state : State) (turn : Turn) : Transcoder State := do
  let mjpg ← formatIs .mjpg
  let index : Int :=
    if mjpg ∧ turn.indexFrameDisplay = 0 then state.rotid else turn.indexFrameDisplay
  let (leaving, eos, rotates) ← leave run state.eos state.frameId index turn
  match leaving with
  | .again => pure { state with eos := eos }
  | .stop => pure { state with eos := eos, ended := true, trace := state.trace ++ [.finish] }
  | .onward => do
      let config ← ask run.config
      let rotid := if rotates then (state.rotid + 1) % run.regfbcount else state.rotid
      (collect config { state with eos := eos, rotid := rotid } turn.toTurn index).elim
        (quit .returned) pure

def turnBody (state : State) (turn : Turn) : Transcoder State := do
  discard throughRotator
  let unit ← jpegUnit run
  let eos ← (if unit then decFillEos streamFillSize turn.fillBefore else pure state.eos)
  match turn.decStart with
  | .jpegEos =>
      pure { state with
        eos := eos
        ended := true
        trace := state.trace ++ [.decStart, .finish] }
  | .jpegBitEmpty => do
      let eos ← decFillEos streamFillSize turn.fillBitEmpty
      pure { state with eos := eos, trace := state.trace ++ [.decStart] }
  | .failure => quit .returned
  | .success => do
      let eos ← decBusy run turn.decBusy 0 eos
      if startReturn turn.toTurn ≠ .success then quit .returned
      else
        let trace := state.trace ++ .decStart :: startCalls turn.toTurn
        afterStart run { state with eos := eos, trace := trace } turn

def loop : List Turn → State → Transcoder State
  | [], state => pure state
  | turn :: rest, state =>
      if state.ended then pure state
      else do
        let next ← turnBody run state turn
        loop rest next

/-- `transcode_start` behind the headers of the encoder. -/
def afterHeaders : Transcoder State :=
  if run.encPicwidth > run.srcPicwidth then quit .returned
  else if run.encPicheight > run.srcPicheight then quit .returned
  else do
    discard (formatIs .mjpg)
    discard throughRotator
    loop run run.turns .start

def transcodeStart : Transcoder State := do
  call run .encoderFillHeaders .returned
  change fun cmdl => { cmdl with srcScheme := .none }
  afterHeaders run

/-- `transcode_test` from the encoder's copy of the command line to the clean-up. -/
def encoderHalf : Transcoder State := do
  giveCmdl
  encoderSetup run
  transcodeStart run

def transcodeBody : Transcoder State := do
  decoderSetup run
  encoderHalf run

def cleanUpErr : Transcoder Unit := do
  ifFormat .avc do
    ioFreePhyMem .slice
    ioFreePhyMem .ps
  ifFormat .vp8 (ioFreePhyMem .vp8Mbparam)
  ioFreePhyMem .bitstream

def cleanUpErr2 : Transcoder Unit := do
  ifScratch run (ioFreePhyMem .encScratch)
  ioFreePhyMem .encBitstream
  cleanUpErr

def cleanUp : Except Exit State → Transcoder Unit
  | .error .err => cleanUpErr
  | .error .err1 => cleanUpErr
  | .error _ => cleanUpErr2 run
  | .ok _ => cleanUpErr2 run

end Loop

structure Report where
  log : List Note
  finished : Bool
  deriving DecidableEq, Repr

/-- The turns end before the loop does. -/
def goesOn : Except Exit State → Bool
  | .ok state => !state.ended
  | .error _ => false

def transcodeTest (run : Run) (cmdl : CmdLine) : Report :=
  if run.succeeds .vpuInit = false then ⟨[], true⟩
  else if run.succeeds .vpuGetVersionInfo = false then ⟨[], true⟩
  else
    let body := transcodeBody run cmdl
    if goesOn body.value then ⟨body.log, false⟩
    else ⟨body.log ++ (cleanUp run body.value body.state).log, true⟩

/-! ## The loop follows the model of `transcode_start` -/

section Refines
variable (run : Run) (cmdl : CmdLine)

theorem formatIs_computes (std : Format) :
    Computes (formatIs std) cmdl (some (cmdl.format == std)) := ⟨rfl, rfl⟩

theorem decFillEos_computes (size : Nat) (answer : Option Bool) :
    Computes (decFillEos size answer) cmdl answer := by
  cases answer with
  | none => exact ⟨rfl, rfl⟩
  | some eos => exact ⟨rfl, rfl⟩

theorem jpegUnit_computes :
    Computes (jpegUnit run) cmdl (some (run.mx6x && cmdl.format == .mjpg)) := by
  unfold jpegUnit
  cases run.mx6x with
  | false => exact ⟨rfl, rfl⟩
  | true => exact ⟨rfl, rfl⟩

theorem throughRotator_computes : Computes throughRotator cmdl
    (some (cmdl.rotEn || cmdl.deringEn || cmdl.format == .mjpg)) := by
  unfold throughRotator
  refine (Computes.ask _).next ?_
  cases cmdl.rotEn || cmdl.deringEn with
  | false => exact formatIs_computes cmdl .mjpg
  | true => exact Computes.pure true

theorem fieldOrder_computes (turn : Turn) : Computes (fieldOrder turn) cmdl (some ()) := by
  unfold fieldOrder
  split
  · exact (formatIs_computes cmdl .vc1).discard
  · exact Computes.pure ()

theorem errMbs_computes (turn : Turn) : Computes (errMbs run turn) cmdl (some ()) := by
  unfold errMbs
  split
  · exact (jpegUnit_computes run cmdl).discard
  · exact Computes.pure ()

theorem decBusy_computes (answers : List (Option Bool)) (loopId : Nat) (eos : Bool) :
    Computes (decBusy run answers loopId eos) cmdl
      (Transcode.decBusy (!(run.mx6x && cmdl.format == .mjpg)) answers loopId eos) := by
  induction answers generalizing loopId eos with
  | nil => exact Computes.pure eos
  | cons answer rest ih =>
      have unit := jpegUnit_computes run cmdl
      rw [decBusy, Transcode.decBusy]
      generalize (run.mx6x && cmdl.format == .mjpg) = jpeg at ih unit ⊢
      have after : ∀ eos, Computes
          (if loopId = 50 then quit .returned else decBusy run rest (loopId + 1) eos) cmdl
          (if loopId = 50 then none else Transcode.decBusy (!jpeg) rest (loopId + 1) eos) :=
        fun eos => Computes.ite (fun _ => Computes.quit _) fun _ => ih (loopId + 1) eos
      refine unit.next ?_
      cases jpeg with
      | false => exact (decFillEos_computes cmdl _ answer).bind fun eos _ => after eos
      | true => exact (Computes.pure eos).next (after eos)

theorem display_computes (turn : Turn) : Computes (display turn) cmdl
    (if cmdl.dstScheme == .v4l2 then
      if turn.putFails then none else some (cmdl.format == .mjpg) else some false) := by
  unfold display
  refine (throughRotator_computes cmdl).discard.next ((Computes.ask _).next ?_)
  refine Computes.ite (fun _ => Computes.ite (fun _ => Computes.quit _) fun _ => ?_) fun _ => ?_
  · exact (formatIs_computes cmdl .mjpg).discard.next (formatIs_computes cmdl .mjpg)
  · exact (formatIs_computes cmdl .mjpg).discard.next (Computes.pure false)

theorem prescanFill_computes (eos : Bool) (turn : Turn) : Computes (prescanFill eos turn) cmdl
    (if eos then some (.stop, eos)
      else turn.fillPrescan.bind fun eos => some (if eos then .stop else .again, eos)) := by
  unfold prescanFill
  refine Computes.ite (fun _ => Computes.pure _) fun _ => ?_
  refine (Computes.ask _).next ?_
  exact (decFillEos_computes cmdl _ _).bind fun _ _ => Computes.pure _

/-- What `leave` gives, told from what the loop model says of the same part. -/
def withRotation (config : Config) (left : Transcode.Leave × Bool) :
    Transcode.Leave × Bool × Bool :=
  (left.1, left.2, left.1 == .onward && config.v4l2 && config.mjpg)


theorem withRotation_quit (config : Config) (quit eos : Bool) :
    withRotation config (if quit then .stop else .again, eos) =
      (if quit then .stop else .again, eos, false) := by
  cases quit with
  | false => rfl
  | true => rfl

theorem shown_computes (eos : Bool) (frameId : Nat) (turn : Turn) :
    Computes (shown run eos frameId turn) cmdl
      ((if (run.config cmdl).v4l2 ∧ turn.putFails then none
        else if cmdl.count ≠ 0 ∧ (frameId : Int) ≥ cmdl.count then some (.stop, eos)
        else (if (run.config cmdl).net then turn.fillNet else some eos).map
          (Transcode.Leave.onward, ·)).map (withRotation (run.config cmdl))) := by
  unfold shown
  by_cases failing : (run.config cmdl).v4l2 = true ∧ turn.putFails = true
  · rw [if_pos failing]
    have fails := display_computes cmdl turn
    rw [if_pos (show (cmdl.dstScheme == .v4l2) = true from failing.1), if_pos failing.2] at fails
    exact fails.stop
  · rw [if_neg failing]
    have gives : Computes (display turn) cmdl
        (some ((run.config cmdl).v4l2 && (run.config cmdl).mjpg)) := by
      have given := display_computes cmdl turn
      simp only [Run.config] at failing ⊢
      cases dst : cmdl.dstScheme == Scheme.v4l2 with
      | false => simpa [dst] using given
      | true => simpa [dst, show turn.putFails = false by simpa [dst] using failing] using given
    refine gives.next ((errMbs_computes run cmdl turn).next ((Computes.ask _).next ?_))
    split
    · exact Computes.pure _
    · refine (Computes.ask _).next ?_
      have filled : Computes (if (cmdl.srcScheme == .net) = true
          then decFillEos streamFillSize turn.fillNet else pure eos) cmdl
          (if (run.config cmdl).net then turn.fillNet else some eos) :=
        Computes.ite (fun _ => decFillEos_computes cmdl _ _) fun _ => Computes.pure eos
      rw [Option.map_map, Option.map_eq_bind]
      exact filled.bind fun eos _ => Computes.pure _


theorem decoded_computes (state : State) (turn : Turn) (index : Int) :
    Computes (decoded run state.eos state.frameId index turn) cmdl
      ((if index = -1 ∨
          (index > run.regfbcount ∧ turn.prescanresult ≠ 0 ∧ run.mx6x = false) then
        some (.stop, state.eos)
      else if run.mx6x = false ∧ turn.prescanresult = 0 ∧ (run.config cmdl).prescanEnable = 1 then
        if state.eos then some (.stop, state.eos)
        else turn.fillPrescan.bind fun eos => some (if eos then .stop else .again, eos)
      else if turn.quitflag then some (.stop, state.eos)
      else if index = -3 ∨ index = -2 then some (.again, state.eos)
      else if (run.config cmdl).v4l2 ∧ turn.putFails then none
      else if cmdl.count ≠ 0 ∧ (state.frameId : Int) ≥ cmdl.count then some (.stop, state.eos)
      else (if (run.config cmdl).net then turn.fillNet else some state.eos).map
          (Transcode.Leave.onward, ·)).map (withRotation (run.config cmdl))) := by
  unfold decoded
  refine (fieldOrder_computes cmdl turn).next ((Computes.ask _).next ?_)
  split
  · exact Computes.pure _
  split
  · rw [Option.map_eq_bind]
    refine (prescanFill_computes cmdl state.eos turn).bind fun left given => ?_
    obtain ⟨stopping, same⟩ : ∃ stopping : Bool,
        left = (if stopping then .stop else .again, left.2) := by
      split at given
      · exact ⟨true, Option.some.inj given ▸ rfl⟩
      · obtain ⟨eos, _, given⟩ := Option.bind_eq_some_iff.mp given
        exact ⟨eos, Option.some.inj given ▸ rfl⟩
    rw [same, Function.comp_apply, withRotation_quit]
    exact Computes.pure _
  split
  · exact Computes.pure _
  split
  · exact (formatIs_computes cmdl .mjpg).discard.next (Computes.pure _)
  · exact shown_computes run cmdl state.eos state.frameId turn

theorem leave_computes (state : State) (turn : Turn) :
    Computes (leave run state.eos state.frameId
        (displayIndex (run.config cmdl) state turn.toTurn) turn) cmdl
      ((Transcode.leave (run.config cmdl) state turn.toTurn).map
        (withRotation (run.config cmdl))) := by
  unfold leave Transcode.leave
  simp only [Run.config_mx6x]
  by_cases failed : turn.decodingSuccess = 0
  · rw [if_pos failed, if_pos failed, Option.map_some, withRotation_quit]
    exact Computes.pure _
  rw [if_neg failed, if_neg failed]
  by_cases short : run.mx6x = true ∧ turn.decodingSuccess &&& 0x10 ≠ 0
  · rw [if_pos short, if_pos short, Option.bind_eq_bind, Option.map_bind]
    refine (decFillEos_computes cmdl _ _).bind fun eos _ => ?_
    rw [Function.comp_apply, Option.map_some, withRotation_quit]
    exact Computes.pure _
  rw [if_neg short, if_neg short]
  split
  · exact Computes.quit _
  split
  · exact Computes.quit _
  · exact decoded_computes run cmdl state turn _

theorem collected_computes (config : Config) (state : State) (turn : Turn) (index : Int) :
    Computes
      ((collect config state turn.toTurn index).elim (quit .returned) pure : Transcoder State) cmdl
      (collect config state turn.toTurn index) := by
  cases collect config state turn.toTurn index with
  | none => exact Computes.quit _
  | some next => exact Computes.pure next

theorem afterStart_computes (state : State) (turn : Turn) :
    Computes (afterStart run state turn) cmdl
      (Transcode.afterStart (run.config cmdl) state turn.toTurn) := by
  unfold afterStart Transcode.afterStart
  refine (formatIs_computes cmdl .mjpg).next ?_
  have left := leave_computes run cmdl state turn
  cases given : Transcode.leave (run.config cmdl) state turn.toTurn with
  | none =>
      rw [given] at left
      exact left.stop
  | some result =>
      obtain ⟨leaving, eos⟩ := result
      rw [given] at left
      refine left.next ?_
      cases leaving with
      | again => exact Computes.pure _
      | stop => exact Computes.pure _
      | onward =>
          refine (Computes.ask _).next ?_
          have rotates : (Transcode.Leave.onward == .onward && (run.config cmdl).v4l2 &&
              (run.config cmdl).mjpg) = true ↔
                (run.config cmdl).v4l2 = true ∧ (run.config cmdl).mjpg = true := by simp
          simp only [rotates]
          exact collected_computes cmdl _ _ turn _

theorem turnBody_computes {state : State} (turn : Turn) (live : state.ended = false) :
    Computes (turnBody run state turn) cmdl
      (transcodeStep (run.config cmdl) state turn.toTurn) := by
  unfold turnBody transcodeStep
  rw [if_neg (by simp [live])]
  refine (throughRotator_computes cmdl).discard.next ((jpegUnit_computes run cmdl).next ?_)
  have first : Computes
      (if (run.mx6x && cmdl.format == .mjpg) = true
        then decFillEos streamFillSize turn.fillBefore else pure state.eos) cmdl
      (Transcode.fillFirst (run.config cmdl) state turn.toTurn) :=
    Computes.ite (fun _ => decFillEos_computes cmdl _ _) fun _ => Computes.pure _
  refine first.bind fun eos _ => ?_
  cases turn.decStart with
  | jpegEos => exact Computes.pure _
  | jpegBitEmpty => exact (decFillEos_computes cmdl _ _).bind fun _ _ => Computes.pure _
  | failure => exact Computes.quit _
  | success =>
      refine (decBusy_computes run cmdl turn.decBusy 0 eos).bind fun eos _ => ?_
      exact Computes.ite (fun _ => Computes.quit _) fun _ => afterStart_computes run cmdl _ turn

end Refines

end ImxTest.Vpu.TranscodeTest
