import ImxTest.Etm.Async
import ImxTest.Etm.BranchAddr

/-!
# What a trace says

A trace says which instructions are executed, how long the processor waits before
them and where it goes on after a branch; the program flow trace says so of the
branches only and counts them from the last address that it sent.  `etm.c` prints
a line for each, and `etm-objdump.py` reads three kinds of these lines.  Here are
the events that a trace stands for, the lines that they should lead to, and the
parts of the decoders that print them.
-/

set_option autoImplicit false

namespace ImxTest.Etm

open ImxTest.Lib.BitGroups

/-! ## Events -/

/-- An instruction whose condition fails is not executed.  Of the program flow trace
`instruction` is a branch. -/
inductive Event where
  | wait
  | instruction (execute : Bool)
  | jump (addr : Word) (mode : Mode)
  | sync (addr : Word) (mode : Mode)
  deriving DecidableEq, Repr

/-- A line that `etm-objdump.py` reacts to. -/
inductive Report where
  | execute (execute : Bool) (addr : Word) (branchPoints : Option Nat) (waited : Nat)
  | branch (addr : Word)
  | isync (addr : Word)
  deriving DecidableEq, Repr

/-- How far a trace has come.  A branch packet is sent against the address that was
sent last; before the first I-sync no bit of it is valid. -/
structure Place where
  mode : Mode
  anchor : Word
  valid : Word
  pc : Word
  points : Nat
  waited : Nat
  deriving DecidableEq, Repr

namespace Place
variable (flow : Bool)

def goTo (place : Place) (addr : Word) (mode : Mode) : Place :=
  { place with mode := mode, anchor := addr, valid := 0xffffffff, pc := addr, points := 0 }

def step (place : Place) : Event → Place
  | .wait => { place with waited := place.waited + 1 }
  | .instruction _ =>
      { place with
        pc := if flow then place.pc else place.pc + (1 <<< place.mode.shift)
        points := if flow then place.points + 1 else place.points
        waited := 0 }
  | .jump addr mode => place.goTo addr mode
  | .sync addr mode => place.goTo addr mode

def report (place : Place) : Event → List Report
  | .wait => []
  | .instruction execute =>
      if place.valid = 0xffffffff then
        [.execute execute place.pc (if flow then some (place.points + 1) else none) place.waited]
      else []
  | .jump addr _ => [.branch addr]
  | .sync addr _ => [.isync addr]

def after (place : Place) (events : List Event) : Place :=
  events.foldl (step flow) place

def reports (place : Place) : List Event → List Report
  | [] => []
  | event :: rest => place.report flow event ++ (place.step flow event).reports rest

theorem after_append (place : Place) (first second : List Event) :
    place.after flow (first ++ second) = (place.after flow first).after flow second :=
  List.foldl_append

theorem reports_append (place : Place) (first second : List Event) :
    place.reports flow (first ++ second) =
      place.reports flow first ++ (place.after flow first).reports flow second := by
  induction first generalizing place with
  | nil => rfl
  | cons event rest ih =>
      rw [List.cons_append, reports, reports, ih, List.append_assoc]
      rfl

theorem reports_one (place : Place) (event : Event) :
    place.reports flow [event] = place.report flow event :=
  List.append_nil _

end Place

/-! ## What is left to read -/

/-- The bytes that the calls of `get_byte` will still return. -/
def State.supply (state : State) : List Byte :=
  if state.useFormatter then formatterBytes state.formatter state.input else state.input

theorem getByte_supply {state : State} {ch : Byte} {rest : List Byte}
    (supply : state.supply = ch :: rest) :
    ∃ formatter input, getByte state = .ok ch ((state.advance formatter input).receive ch) ∧
      ((state.advance formatter input).receive ch).supply = rest := by
  have left (formatter : Formatter) (input : List Byte) :
      ((state.advance formatter input).receive ch).supply =
        if state.useFormatter then formatterBytes formatter input else input := rfl
  rw [State.supply] at supply
  unfold getByte takeByte
  cases formatted : state.useFormatter with
  | true =>
      rw [if_pos formatted, formatterBytes] at supply
      split at supply
      · cases supply
      · next ch' formatter input returned =>
          cases supply
          refine ⟨formatter, input, ?_, ?_⟩
          · rw [if_pos rfl, returned]
          · rw [left, if_pos formatted]
  | false =>
      rw [formatted] at supply
      have input : state.input = ch :: rest := supply
      refine ⟨state.formatter, rest, ?_, ?_⟩
      · simp [input]
      · rw [left, formatted]
        rfl

theorem getByte_ended {state : State} (supply : state.supply = []) :
    getByte state =
      .error () (if state.waitCount ≠ 0 then state.print (.waited state.waitCount) else state) := by
  rw [State.supply] at supply
  unfold getByte takeByte
  cases formatted : state.useFormatter with
  | true =>
      rw [if_pos formatted, formatterBytes] at supply
      split at supply
      · next ended => rw [if_pos rfl, ended]
      · cases supply
  | false =>
      rw [formatted] at supply
      have input : state.input = [] := supply
      simp [input]

theorem gives_supply {state : State} {bytes rest : List Byte}
    (supply : state.supply = bytes ++ rest) :
    ∃ after, Gives state bytes after ∧ after.supply = rest := by
  induction bytes generalizing state with
  | nil => exact ⟨state, rfl, supply⟩
  | cons ch more ih =>
      obtain ⟨formatter, input, returned, left⟩ := getByte_supply supply
      obtain ⟨after, gives, left'⟩ := ih left
      exact ⟨after, ⟨_, returned, gives⟩, left'⟩

/-! ## The lines of the log -/

namespace Entry

/-- What the expressions `r_etm_execute`, `r_etm_branch` and `r_etm_isync` match:
lines that begin with a blank, and no instruction with a valid mask or with a minus
sign. -/
def report : Entry → Option Report
  | .instruction shown =>
      if shown.inSync && shown.valid.isNone && 0 ≤ shown.waited &&
          shown.branchPoints.all (0 ≤ ·) then
        some (.execute shown.execute shown.pc (shown.branchPoints.map Int.toNat)
          shown.waited.toNat)
      else none
  | .line (.branch inSync iaddr _ _ _) => if inSync then some (.branch iaddr) else none
  | .line (.isync inSync _ _ iaddr) => if inSync then some (.isync iaddr) else none
  | _ => none

end Entry

def reports (log : List Entry) : List Report :=
  log.filterMap Entry.report

theorem reports_snoc (log : List Entry) (entry : Entry) :
    reports (log ++ [entry]) = reports log ++ entry.report.toList := by
  rw [reports, List.filterMap_append, reports]
  cases report : entry.report with
  | none => simp [report]
  | some found => simp [report]

/-- The decoder is in synchronisation, has come as far as the trace and has printed these
lines. -/
structure Tracks (place : Place) (printed : List Report) (state : State) : Prop where
  sync : 0 < state.sync
  valid : state.iaddrValid = place.valid
  mode : state.mode = place.mode
  iaddr : state.iaddr = place.anchor
  pc : state.pc = place.pc
  branchCount : state.branchCount = place.points
  waitCount : state.waitCount = place.waited
  printed : reports state.log = printed

namespace Tracks
variable {config : Config} {place : Place} {printed : List Report} {state : State}

theorem print (tracks : Tracks place printed state) {line : Line} {found : List Report}
    (report : (Entry.line line).report.toList = found) :
    Tracks place (printed ++ found) (state.print line) where
  sync := tracks.sync
  valid := tracks.valid
  mode := tracks.mode
  iaddr := tracks.iaddr
  pc := tracks.pc
  branchCount := tracks.branchCount
  waitCount := tracks.waitCount
  printed := by
    rw [State.print, reports_snoc, tracks.printed, report]

/-- A line that the script passes over. -/
theorem printQuietly (tracks : Tracks place printed state) {line : Line}
    (quiet : (Entry.line line).report = none) : Tracks place printed (state.print line) := by
  have same := tracks.print (congrArg Option.toList quiet)
  rwa [Option.toList_none, List.append_nil] at same

theorem getByte {ch : Byte} {next : State} (tracks : Tracks place printed state)
    (returned : getByte state = .ok ch next) : Tracks place printed next := by
  obtain ⟨formatter, input, _, rfl⟩ := getByte_ok returned
  have counted : State.countZero state.sync ch = state.sync :=
    if_neg (fun both => absurd tracks.sync (Int.not_lt.mpr both.2))
  exact {
    sync := lt_of_lt_of_eq tracks.sync counted.symm
    valid := tracks.valid
    mode := tracks.mode
    iaddr := tracks.iaddr
    pc := tracks.pc
    branchCount := tracks.branchCount
    waitCount := tracks.waitCount
    printed := by
      rw [State.receive, reports_snoc]
      exact (List.append_nil _).trans tracks.printed }

theorem gives {bytes : List Byte} {after : State} (tracks : Tracks place printed state)
    (gives : Gives state bytes after) : Tracks place printed after := by
  induction bytes generalizing state with
  | nil =>
      cases gives
      exact tracks
  | cons ch rest ih =>
      obtain ⟨next, returned, later⟩ := gives
      exact ih (tracks.getByte returned) later

theorem wait (tracks : Tracks place printed state) (flow : Bool) :
    Tracks (place.step flow .wait) printed (state.wait 1) where
  sync := tracks.sync
  valid := tracks.valid
  mode := tracks.mode
  iaddr := tracks.iaddr
  pc := tracks.pc
  branchCount := tracks.branchCount
  waitCount := congrArg (· + 1) tracks.waitCount
  printed := tracks.printed

theorem report_printInstruction (config : Config) (tracks : Tracks place printed state)
    (execute : Bool) :
    reports (state.printInstruction config execute).log =
      printed ++ place.report config.programFlowOnly (.instruction execute) := by
  have longWait : reports (state.log ++ if config.longWait < BitVec.ofInt 32 state.waitCount then
      [Entry.line .longWait] else []) = printed := by
    split
    · rw [reports_snoc]
      exact (List.append_nil _).trans tracks.printed
    · rw [List.append_nil]
      exact tracks.printed
  have inSync : decide (0 < state.sync) = true := decide_eq_true tracks.sync
  have points : decide ((0 : Int) ≤ (place.points : Int) + 1) = true :=
    decide_eq_true (Int.natCast_nonneg (place.points + 1))
  refine (reports_snoc _ _).trans (congrArg₂ (· ++ ·) longWait ?_)
  by_cases whole : place.valid = 0xffffffff#32
  · cases flow : config.programFlowOnly with
    | false =>
        simp [Entry.report, State.nextPc, State.inSync, State.shownValid, flow, inSync,
          tracks.valid, whole, tracks.pc, tracks.waitCount, Place.report]
    | true =>
        simp [Entry.report, State.nextPc, State.inSync, State.shownValid, flow, inSync,
          tracks.valid, whole, tracks.pc, tracks.waitCount, tracks.branchCount, points,
          Place.report]
  · simp [Entry.report, State.nextPc, State.shownValid, tracks.valid, whole, Place.report]

theorem printInstruction (config : Config) (tracks : Tracks place printed state)
    (execute : Bool) :
    Tracks (place.step config.programFlowOnly (.instruction execute))
      (printed ++ place.report config.programFlowOnly (.instruction execute))
      (state.printInstruction config execute) where
  sync := tracks.sync
  valid := tracks.valid
  mode := tracks.mode
  iaddr := tracks.iaddr
  pc := by
    simp only [State.printInstruction, State.nextPc, Place.step, tracks.pc, tracks.mode]
  branchCount := by
    simp only [State.printInstruction, State.nextPc, Place.step, tracks.branchCount]
    split
    · rfl
    · rfl
  waitCount := rfl
  printed := tracks.report_printInstruction config execute

end Tracks

/-! ## Parts of a decoder that stand for events -/

/-- A step that reads nothing and prints the lines of these events. -/
def Performs (config : Config) (body : Decode Unit) (events : List Event) : Prop :=
  ∀ ⦃place printed state⦄, Tracks place printed state →
    ∃ after, body state = .ok () after ∧ after.supply = state.supply ∧
      Tracks (place.after config.programFlowOnly events)
        (printed ++ place.reports config.programFlowOnly events) after

section Performs
variable {config : Config} {first second : Decode Unit} {firstEvents secondEvents : List Event}

theorem performs_pure : Performs config (pure ()) [] := by
  intro place printed state tracks
  rw [Place.reports, List.append_nil]
  exact ⟨state, rfl, rfl, tracks⟩

theorem performs_wait : Performs config (update (State.wait 1)) [.wait] := by
  intro place printed state tracks
  rw [Place.reports_one, Place.report, List.append_nil]
  exact ⟨_, rfl, rfl, tracks.wait config.programFlowOnly⟩

theorem performs_printInstruction (config : Config) (execute : Bool) :
    Performs config (Etm.printInstruction config execute) [.instruction execute] := by
  intro place printed state tracks
  rw [Place.reports_one]
  exact ⟨_, rfl, rfl, tracks.printInstruction config execute⟩

theorem Performs.bind (front : Performs config first firstEvents)
    (back : Performs config second secondEvents) :
    Performs config (do first; second) (firstEvents ++ secondEvents) := by
  intro place printed state tracks
  obtain ⟨middle, firstRun, firstInput, firstTracks⟩ := front tracks
  obtain ⟨after, secondRun, secondInput, secondTracks⟩ := back firstTracks
  rw [Place.after_append, Place.reports_append, ← List.append_assoc]
  exact ⟨after, (bind_of_ok firstRun fun _ => second).trans secondRun,
    secondInput.trans firstInput, secondTracks⟩

def repeated (count : Nat) (events : List Event) : List Event :=
  (List.replicate count events).flatten

theorem Performs.repeatDown (body : Performs config first firstEvents) (count : Nat) :
    Performs config (repeatDown count first) (repeated count firstEvents) := by
  induction count with
  | zero => exact performs_pure
  | succ count ih => exact body.bind ih

theorem performs_waits (count : Nat) :
    Performs config (update (State.wait count)) (repeated count [.wait]) := by
  intro place printed state tracks
  obtain ⟨after, run, input, tracks'⟩ := performs_wait.repeatDown count tracks
  have same : ∀ (count : Nat) (state : State),
      repeatDown count (update (State.wait 1)) state = .ok () (state.wait count) := by
    intro count
    induction count with
    | zero =>
        intro state
        simp [Etm.repeatDown, State.wait, Pure.pure, EStateM.pure]
    | succ count ih =>
        intro state
        have once : update (State.wait 1) state = .ok () (state.wait 1) := rfl
        rw [Etm.repeatDown, bind_of_ok once, ih]
        simp only [State.wait]
        congr 2
        omega
  rw [same] at run
  exact ⟨after, run, input, tracks'⟩

end Performs

/-! ## P-headers -/

inductive CycleHeader where
  | format0
  | format1 (count : BitVec 3) (last : Bool) (some : count ≠ 0 ∨ last = true)
  | format2 (first second : Bool)
  | format3 (count : BitVec 3) (last : Bool)
  | format4 (execute : Bool)

namespace CycleHeader

def byte : CycleHeader → Byte
  | format0 => 0x80
  | format1 count last _ => 1#1 ++ BitVec.ofBool last ++ 0#1 ++ count ++ 0#2
  | format2 first second => 0x8#4 ++ BitVec.ofBool (!first) ++ BitVec.ofBool (!second) ++ 2#2
  | format3 count last => 1#1 ++ BitVec.ofBool last ++ 1#1 ++ count ++ 0#2
  | format4 execute => 0x12#5 ++ BitVec.ofBool (!execute) ++ 2#2

def events : CycleHeader → List Event
  | format0 => [.wait]
  | format1 count last _ =>
      repeated count.toNat [.wait, .instruction true] ++
        repeated last.toNat [.wait, .instruction false]
  | format2 first second => [.wait, .instruction first, .instruction second]
  | format3 count last =>
      repeated (count.toNat + 1) [.wait] ++ repeated last.toNat [.instruction true]
  | format4 execute => [.instruction execute]

end CycleHeader

inductive InstructionHeader where
  | format1 (count : BitVec 4) (last : Bool)
  | format2 (first second : Bool)

namespace InstructionHeader

def byte : InstructionHeader → Byte
  | format1 count last => 1#1 ++ BitVec.ofBool last ++ count ++ 0#2
  | format2 first second => 0x8#4 ++ BitVec.ofBool (!first) ++ BitVec.ofBool (!second) ++ 2#2

def events : InstructionHeader → List Event
  | format1 count last =>
      repeated count.toNat [.instruction true] ++ repeated last.toNat [.instruction false]
  | format2 first second => [.instruction first, .instruction second]

end InstructionHeader

section Pheader
variable {config : Config}

theorem performs_pheaderCycles (header : CycleHeader) :
    Performs config (pheaderCycles config header.byte) header.events := by
  have executes (execute : Bool) := performs_printInstruction config execute
  have waitAndPrint (execute : Bool) := performs_wait.bind (executes execute)
  cases header with
  | format0 => exact performs_wait
  | format1 count last some =>
      have fields : ∀ (count : BitVec 3) (last : Bool),
          let data : Byte := 1#1 ++ BitVec.ofBool last ++ 0#1 ++ count ++ 0#2
          (data = 0x80 → count = 0 ∧ last = false) ∧ data &&& 0xa3 = 0x80 ∧
            ((data >>> 2) &&& 0x7).toNat = count.toNat ∧
            ((data >>> 6) &&& 0x1).toNat = last.toNat := by decide
      obtain ⟨zero, format, many, once⟩ := fields count last
      have notZero : CycleHeader.byte (.format1 count last some) ≠ 0x80 := by
        intro same
        obtain ⟨none, notLast⟩ := zero same
        rw [notLast] at some
        exact some.elim (fun differs => differs none) Bool.noConfusion
      rw [pheaderCycles, if_neg notZero]
      simp only [CycleHeader.byte, if_pos format, many, once]
      exact ((waitAndPrint true).repeatDown _).bind ((waitAndPrint false).repeatDown _)
  | format2 first second =>
      have two := performs_wait.bind ((executes first).bind (executes second))
      cases first with
      | false =>
          cases second with
          | false => exact two
          | true => exact two
      | true =>
          cases second with
          | false => exact two
          | true => exact two
  | format3 count last =>
      have fields : ∀ (count : BitVec 3) (last : Bool),
          let data : Byte := 1#1 ++ BitVec.ofBool last ++ 1#1 ++ count ++ 0#2
          data ≠ 0x80 ∧ data &&& 0xa3 ≠ 0x80 ∧ data &&& 0xf3 ≠ 0x82 ∧ data &&& 0xa3 = 0xa0 ∧
            ((data >>> 2) &&& 0x7).toNat = count.toNat ∧
            ((data >>> 6) &&& 0x1).toNat = last.toNat := by decide
      obtain ⟨notZero, notOne, notTwo, format, many, once⟩ := fields count last
      rw [pheaderCycles]
      simp only [CycleHeader.byte, if_neg notZero, if_neg notOne, if_neg notTwo, if_pos format,
        many, once]
      exact (performs_waits (count.toNat + 1)).bind ((executes true).repeatDown _)
  | format4 execute =>
      cases execute with
      | false => exact executes false
      | true => exact executes true

theorem performs_pheaderInstructions (header : InstructionHeader) :
    Performs config (pheaderInstructions config header.byte) header.events := by
  have executes (execute : Bool) := performs_printInstruction config execute
  cases header with
  | format1 count last =>
      have fields : ∀ (count : BitVec 4) (last : Bool),
          let data : Byte := 1#1 ++ BitVec.ofBool last ++ count ++ 0#2
          data &&& 0x83 = 0x80 ∧ ((data >>> 2) &&& 0x0f).toNat = count.toNat ∧
            (data &&& 0x40 != 0) = last := by decide
      obtain ⟨format, many, once⟩ := fields count last
      rw [pheaderInstructions]
      simp only [InstructionHeader.byte, if_pos format, many, once]
      refine ((executes true).repeatDown _).bind ?_
      cases last with
      | false => exact performs_pure
      | true => exact executes false
  | format2 first second =>
      have two := (executes first).bind (executes second)
      cases first with
      | false =>
          cases second with
          | false => exact two
          | true => exact two
      | true =>
          cases second with
          | false => exact two
          | true => exact two

end Pheader

end ImxTest.Etm
