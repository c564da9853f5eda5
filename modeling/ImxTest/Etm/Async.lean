import ImxTest.Etm.Lockstep

/-!
# A-sync packets between other packets

An A-sync is five zero bytes and `0x80`.  The zero bytes are packets that do
nothing, but `0x80` is dispatched like any other byte: as a P-header or, in the
program flow trace, as an atom.  Two runs that differ in an A-sync are compared
by what instructions have been printed and what the next ones will show.
-/

set_option autoImplicit false

namespace ImxTest.Etm

open ImxTest.Lib.TwoRuns

/-- The arguments and the wait count of a call of `print_instruction`. -/
structure Call where
  pc : Word
  execute : Bool
  waited : Int
  deriving DecidableEq, Repr

def Entry.call : Entry → Option Call
  | .instruction printed => some ⟨printed.pc, printed.execute, printed.waited⟩
  | _ => none

def calls (log : List Entry) : List Call :=
  log.filterMap Entry.call

/-- What `print_instruction` reads and changes. -/
structure Ledger where
  calls : List Call
  waitCount : Int
  pc : Word
  branchCount : Int
  deriving DecidableEq, Repr

namespace Ledger

def printInstruction (config : Config) (mode : Mode) (execute : Bool) (ledger : Ledger) :
    Ledger where
  calls := ledger.calls ++ [⟨ledger.pc, execute, ledger.waitCount⟩]
  waitCount := 0
  pc := if config.programFlowOnly then ledger.pc else ledger.pc + (1 <<< mode.shift)
  branchCount := if config.programFlowOnly then ledger.branchCount + 1 else ledger.branchCount

def wait (count : Int) (ledger : Ledger) : Ledger :=
  { ledger with waitCount := ledger.waitCount + count }

def goTo (addr : Word) (ledger : Ledger) : Ledger :=
  { ledger with pc := addr, branchCount := 0 }

/-- A relation between the ledgers of two runs that every step keeps. -/
structure Kept (config : Config) (tied : Ledger → Ledger → Prop) : Prop where
  printInstruction : ∀ mode execute {u v}, tied u v →
    tied (u.printInstruction config mode execute) (v.printInstruction config mode execute)
  wait : ∀ count {u v}, tied u v → tied (u.wait count) (v.wait count)
  goTo : ∀ addr {u v}, tied u v → tied (u.goTo addr) (v.goTo addr)

end Ledger

namespace State

def ledger (state : State) : Ledger where
  calls := calls state.log
  waitCount := state.waitCount
  pc := state.pc
  branchCount := state.branchCount

/-- The rest of the state, without `sync` and the log. -/
def core (state : State) : State :=
  { state with waitCount := 0, pc := 0, branchCount := 0, sync := 0, log := [] }

/-- The same between two packets, where the last byte does not matter. -/
def between (state : State) : State :=
  { state with waitCount := 0, pc := 0, branchCount := 0, sync := 0, log := [], data := 0 }

theorem calls_snoc (log : List Entry) (entry : Entry) :
    calls (log ++ [entry]) = calls log ++ entry.call.toList := by
  rw [calls, List.filterMap_append, calls]
  cases call : entry.call with
  | none => simp [call]
  | some call' => simp [call]

theorem ledger_print (state : State) (line : Line) :
    (state.print line).ledger = state.ledger := by
  simp [ledger, print, calls_snoc, Entry.call]

theorem ledger_resync (state : State) : state.resync.ledger = state.ledger := by
  simp [ledger, resync, calls_snoc, Entry.call]

theorem ledger_receive (state : State) (ch : Byte) :
    (state.receive ch).ledger = state.ledger := by
  simp [ledger, receive, calls_snoc, Entry.call]

theorem ledger_printInstruction (config : Config) (execute : Bool) (state : State) :
    (state.printInstruction config execute).ledger =
      state.ledger.printInstruction config state.mode execute := by
  have printed : calls (state.printInstruction config execute).log =
      calls state.log ++ [⟨state.pc, execute, state.waitCount⟩] := by
    unfold printInstruction
    dsimp only
    split
    · rw [calls_snoc, calls_snoc]
      simp [Entry.call, nextPc]
    · rw [calls_snoc]
      simp [Entry.call, nextPc]
  rw [ledger, printed]
  rfl

end State

/-! ## Two runs with different ledgers -/

/-- Two states within a packet that differ only in their ledgers, in `sync` and in
the log. -/
def Apart (tied : Ledger → Ledger → Prop) (s t : State) : Prop :=
  s.core = t.core ∧ tied s.ledger t.ledger

def ApartBetween (tied : Ledger → Ledger → Prop) (s t : State) : Prop :=
  s.between = t.between ∧ tied s.ledger t.ledger

section Apart
variable {config : Config} {tied : Ledger → Ledger → Prop}

theorem Apart.between {s t : State} (apart : Apart tied s t) : ApartBetween tied s t := by
  refine ⟨?_, apart.2⟩
  have shown : ∀ state : State, state.between = { state.core with data := 0 } := fun _ => rfl
  rw [shown s, shown t, apart.1]

theorem apart_getByte :
    Sim (fun _ => True) (ApartBetween tied) getByte getByte (Same (Apart tied)) := by
  rintro s t ⟨same, holds⟩
  have useFormatter := State.field_eq State.between State.useFormatter (fun _ => rfl) same
  have formatter := State.field_eq State.between State.formatter (fun _ => rfl) same
  have input := State.field_eq State.between State.input (fun _ => rfl) same
  unfold getByte
  rw [useFormatter, formatter, input]
  cases takeByte t.useFormatter t.formatter t.input with
  | none => trivial
  | some found =>
      obtain ⟨ch, formatter', input'⟩ := found
      refine ⟨ch, _, rfl, rfl, ?_, ?_⟩
      · have shown : ∀ state : State,
            ((state.advance formatter' input').receive ch).core =
              ((state.between.advance formatter' input').receive ch).core := fun _ => rfl
        rw [shown s, shown t, same]
      · rw [State.ledger_receive, State.ledger_receive]
        exact holds

theorem Apart.mode {s t : State} (apart : Apart tied s t) : s.mode = t.mode :=
  State.field_eq State.core State.mode (fun _ => rfl) apart.1

theorem Apart.untouched (change : State → State)
    (ledger : ∀ state, (change state).ledger = state.ledger)
    (alone : ∀ state, (change state).core = (change state.core).core) {s t : State}
    (apart : Apart tied s t) : Apart tied (change s) (change t) := by
  refine ⟨State.view_eq State.core alone apart.1, ?_⟩
  rw [ledger s, ledger t]
  exact apart.2

theorem Apart.printInstruction (kept : Ledger.Kept config tied) (execute : Bool) {s t : State}
    (apart : Apart tied s t) :
    Apart tied (s.printInstruction config execute) (t.printInstruction config execute) := by
  refine ⟨apart.1, ?_⟩
  rw [State.ledger_printInstruction, State.ledger_printInstruction, apart.mode]
  exact kept.printInstruction _ execute apart.2

theorem Apart.branchTo (kept : Ledger.Kept config tied) (addr validMask : Word) {s t : State}
    (apart : Apart tied s t) :
    Apart tied (s.branchTo addr validMask) (t.branchTo addr validMask) := by
  refine ⟨State.view_eq State.core (fun _ => rfl) apart.1, ?_⟩
  have goTo := kept.goTo (addr <<< t.mode.shift) apart.2
  rw [← apart.mode] at goTo
  have target : (t.branchTo addr validMask).ledger = t.ledger.goTo (addr <<< s.mode.shift) := by
    rw [apart.mode]
    rfl
  rw [target]
  exact goTo

theorem lockstep_apart (kept : Ledger.Kept config tied) :
    Lockstep config (fun _ => True) (Apart tied) := by
  have getByte : Keeps (fun _ => True) (Apart tied) getByte :=
    apart_getByte.weaken (fun _ _ => Apart.between) (fun _ _ _ _ after => after)
  exact {
    getByte := getByte
    data := fun apart => State.field_eq State.core State.data (fun _ => rfl) apart.1
    timestamp := fun apart => State.field_eq State.core State.timestamp (fun _ => rfl) apart.1
    printInstruction := fun execute _ _ apart => apart.printInstruction kept execute
    wait := fun count _ _ apart => ⟨apart.1, kept.wait count apart.2⟩
    print := by
      intro line _ s t apart
      refine ⟨apart.1, ?_⟩
      rw [State.ledger_print, State.ledger_print]
      exact apart.2
    resync := Apart.untouched State.resync State.ledger_resync (fun _ => rfl)
    setTimestamp := fun new =>
      Apart.untouched (State.setTimestamp new) (fun _ => rfl) (fun _ => rfl)
    setDaddrGroup := fun i data =>
      Apart.untouched (State.setDaddrGroup i data) (fun _ => rfl) (fun _ => rfl)
    updateAddr := fun ib addr _ _ apart =>
      ⟨State.view_eq State.core (fun _ => rfl) apart.1, kept.goTo _ apart.2⟩
    getBranchAddr := keeps_getBranchAddr getByte
      (fun _ _ apart => State.field_eq State.core State.data (fun _ => rfl) apart.1)
      (fun _ _ apart =>
        State.field_eq State.core (fun state => state.iaddr >>> state.mode.shift)
          (fun _ => rfl) apart.1)
      (fun apart => apart.printInstruction kept true)
      (fun mode => Apart.untouched (State.setMode mode) (fun _ => rfl) (fun _ => rfl))
      (fun addr validMask _ _ apart => apart.branchTo kept addr validMask) }

theorem keeps_packets_apart (kept : Ledger.Kept config tied) (count : Nat) :
    Keeps (fun _ => True) (ApartBetween tied) (packets config count) := by
  refine keeps_repeatDown ?_ count
  have packet : Sim (fun _ => True) (ApartBetween tied) (packet config) (packet config)
      (Same (Apart tied)) := by
    refine apart_getByte.bind ?_
    rintro ch _ s t ⟨rfl, apart⟩
    exact (lockstep_apart kept).keeps_handle ch s t apart
  exact packet.weaken (fun _ _ before => before)
    (fun _ _ _ _ after => ⟨after.1, after.2.between⟩)

end Apart
/-! ## Strings of whole packets -/

/-- `bytes` are whole packets, and decoding them from `state` ends in `final`. -/
def Decodes (config : Config) (state : State) (bytes : List Byte) (final : State) : Prop :=
  ∃ count, packets config count (state.feed bytes) = .ok () final ∧ final.input = []

/-- A state and the same one with more input, both without the formatter. -/
def Longer (more : List Byte) (s t : State) : Prop :=
  s.useFormatter = false ∧ t = s.feed (s.input ++ more)

theorem lockstep_longer (config : Config) (more : List Byte) :
    Lockstep config (fun _ => True) (Longer more) := by
  have getByte : Keeps (fun _ => True) (Longer more) getByte := by
    rintro s _ ⟨plain, rfl⟩
    unfold Etm.getByte
    simp only [State.feed, takeByte, plain, Bool.false_eq_true, if_false]
    cases s.input with
    | nil => trivial
    | cons ch rest =>
        refine ⟨ch, _, rfl, rfl, plain, ?_⟩
        simp [State.advance, State.receive, State.feed, plain]
  have kept : ∀ (change : State → State),
      (∀ state, (change state).useFormatter = state.useFormatter) →
      (∀ state bytes, change (state.feed bytes) = (change state).feed bytes) →
      (∀ state, (change state).input = state.input) → ∀ {s t}, Longer more s t →
        Longer more (change s) (change t) := by
    rintro change plain feed input s _ ⟨noFormatter, rfl⟩
    exact ⟨(plain s).trans noFormatter, by rw [feed, input]⟩
  have printed : ∀ execute {s t}, Longer more s t →
      Longer more (s.printInstruction config execute) (t.printInstruction config execute) :=
    fun execute =>
      kept (State.printInstruction config execute) (fun _ => rfl) (fun _ _ => rfl) (fun _ => rfl)
  exact {
    getByte := getByte
    data := by rintro s _ ⟨_, rfl⟩; rfl
    timestamp := by rintro s _ ⟨_, rfl⟩; rfl
    printInstruction := printed
    wait := fun count => kept (State.wait count) (fun _ => rfl) (fun _ _ => rfl) (fun _ => rfl)
    print := by
      rintro line blind s _ ⟨plain, rfl⟩
      refine ⟨plain, ?_⟩
      rw [blind]
      rfl
    resync := kept State.resync (fun _ => rfl) (fun _ _ => rfl) (fun _ => rfl)
    setTimestamp := fun new =>
      kept (State.setTimestamp new) (fun _ => rfl) (fun _ _ => rfl) (fun _ => rfl)
    setDaddrGroup := fun i data =>
      kept (State.setDaddrGroup i data) (fun _ => rfl) (fun _ _ => rfl) (fun _ => rfl)
    updateAddr := fun ib addr =>
      kept (State.updateAddr ib addr) (fun _ => rfl) (fun _ _ => rfl) (fun _ => rfl)
    getBranchAddr := keeps_getBranchAddr getByte
      (by rintro s _ ⟨_, rfl⟩; rfl) (by rintro s _ ⟨_, rfl⟩; rfl) (printed true)
      (fun mode => kept (State.setMode mode) (fun _ => rfl) (fun _ _ => rfl) (fun _ => rfl))
      (fun addr validMask =>
        kept (State.branchTo addr validMask) (fun _ => rfl) (fun _ _ => rfl) (fun _ => rfl)) }

theorem repeatDown_add (first second : Nat) (body : Decode Unit) {s t : State}
    (returned : repeatDown first body s = .ok () t) :
    repeatDown (first + second) body s = repeatDown second body t := by
  induction first generalizing s with
  | zero =>
      cases returned
      rw [Nat.zero_add]
  | succ first ih =>
      rw [Nat.succ_add]
      simp only [repeatDown, Bind.bind, EStateM.bind] at returned ⊢
      cases once : body s with
      | ok value middle =>
          rw [once] at returned
          exact ih returned
      | error stop middle =>
          rw [once] at returned
          cases returned

section Decodes
variable {config : Config} {start middle final : State} {first second : List Byte}

/-- Without the formatter, what follows whole packets does not change how they are
decoded. -/
theorem packets_longer (more : List Byte) (plain : start.useFormatter = false) {count : Nat}
    (returned : packets config count (start.feed first) = .ok () middle)
    (ended : middle.input = []) :
    middle.useFormatter = false ∧
      packets config count (start.feed (first ++ more)) = .ok () (middle.feed more) := by
  have longer : Longer more (start.feed first) (start.feed (first ++ more)) := ⟨plain, rfl⟩
  obtain ⟨t, result, plain', rfl⟩ :=
    ((lockstep_longer config more).keeps_packets count).returns longer returned
  rw [ended] at result
  exact ⟨plain', result⟩

theorem Decodes.append (plain : start.useFormatter = false)
    (front : Decodes config start first middle) (back : Decodes config middle second final) :
    Decodes config start (first ++ second) final := by
  obtain ⟨frontCount, frontRun, frontEnd⟩ := front
  obtain ⟨backCount, backRun, backEnd⟩ := back
  refine ⟨frontCount + backCount, ?_, backEnd⟩
  have longer := (packets_longer second plain frontRun frontEnd).2
  rw [packets, repeatDown_add _ _ _ longer]
  exact backRun

theorem Decodes.plain (plain : start.useFormatter = false)
    (front : Decodes config start first middle) : middle.useFormatter = false := by
  obtain ⟨count, run, ended⟩ := front
  exact (packets_longer [] plain run ended).1

/-- At the end of the input the next pass ends the program. -/
theorem packets_ended (plain : start.useFormatter = false) (ended : start.input = [])
    (count : Nat) {value : Unit} : packets config (count + 1) start ≠ .ok value final := by
  intro returned
  simp [packets, repeatDown, packet, Bind.bind, EStateM.bind, getByte, takeByte, plain,
    ended] at returned

theorem Decodes.unique (plain : start.useFormatter = false)
    (one : Decodes config start first middle) (other : Decodes config start first final) :
    middle = final := by
  have atMost : ∀ {a b : State} {n m : Nat}, n ≤ m → a.useFormatter = false →
      packets config n (start.feed first) = .ok () a → a.input = [] →
      packets config m (start.feed first) = .ok () b → a = b := by
    intro a b n m le plainA runA endA runB
    obtain ⟨more, rfl⟩ := Nat.exists_eq_add_of_le le
    rw [packets, repeatDown_add _ _ _ runA] at runB
    cases more with
    | zero =>
        cases runB
        rfl
    | succ more => exact absurd runB (packets_ended plainA endA more)
  have plainOne := one.plain plain
  have plainOther := other.plain plain
  obtain ⟨n, runOne, endOne⟩ := one
  obtain ⟨m, runOther, endOther⟩ := other
  rcases Nat.le_total n m with le | le
  · exact atMost le plainOne runOne endOne runOther
  · exact (atMost le plainOther runOther endOther runOne).symm

end Decodes

/-! ## The bytes of an A-sync -/

def asyncBytes : List Byte :=
  [0x00, 0x00, 0x00, 0x00, 0x00, 0x80]

def terminatorLedger (config : Config) (mode : Mode) (ledger : Ledger) : Ledger :=
  if config.cycleAccurate then
    match config.table with
    | .etm33 => ledger.wait 1
    | .pft => ledger.printInstruction config mode true
  else ledger

/-- `t` is what some packets made of `s`: `rest` is left to read, and nothing but
the ledger, `sync`, the log and the last byte has changed. -/
structure LeavesRest (s t : State) (rest : List Byte) : Prop where
  input : t.input = rest
  others : t.between = (s.feed rest).between

theorem packet_zero (config : Config) {state : State} {rest : List Byte}
    (plain : state.useFormatter = false) (input : state.input = 0x00 :: rest) :
    ∃ t, packet config state = .ok () t ∧ LeavesRest state t rest ∧
      t.ledger = state.ledger := by
  have type : (config.typeOf 0x00).decode = some .async := by
    unfold Config.typeOf
    cases config.table <;> rfl
  refine ⟨(state.advance state.formatter rest).receive 0x00, ?_, ⟨rfl, rfl⟩, ?_⟩
  · rw [packet_header plain input, handle, type]
    rfl
  · rw [State.ledger_receive]
    rfl

section Terminator
variable {config : Config} {state : State}

theorem pheader_terminator (data : state.data = 0x80) :
    pheader config state =
      .ok 0 (if config.cycleAccurate then state.wait 1 else state) := by
  unfold pheader
  split
  · rw [pheaderCycleAccurate, read_bind, data]
    rfl
  · rw [pheaderNonCycleAccurate, read_bind, data]
    rfl

theorem cycleCountPft_terminator (data : state.data = 0x80) :
    cycleCountPft config state = .ok 0 (state.print (.cycleCount state.inSync 0)) := by
  have never : decide (config.longWait < 0) = false := by simp
  rw [cycleCountPft, read_bind, data]
  change printCount config 0 state = _
  rw [printCount, never]
  rfl

theorem atom_terminator (data : state.data = 0x80) :
    atom config state =
      .ok 0 (if config.cycleAccurate then
        (state.print (.cycleCount state.inSync 0)).printInstruction config true else state) := by
  unfold atom
  split
  · rw [atomCycleAccurate, read_bind, data]
    rw [bind_of_ok (cycleCountPft_terminator data)]
    rfl
  · rw [atomNonCycleAccurate, read_bind, data]
    rfl

end Terminator

theorem packet_terminator (config : Config) {state : State} {rest : List Byte}
    (plain : state.useFormatter = false) (input : state.input = 0x80 :: rest) :
    ∃ t, packet config state = .ok () t ∧ LeavesRest state t rest ∧
      t.ledger = terminatorLedger config state.mode state.ledger := by
  rw [packet_header plain input]
  have received : ((state.advance state.formatter rest).receive 0x80).ledger = state.ledger := by
    rw [State.ledger_receive]
    rfl
  generalize arrived : (state.advance state.formatter rest).receive 0x80 = at80 at received ⊢
  have data : at80.data = 0x80 := by rw [← arrived]; rfl
  have left : LeavesRest state at80 rest := by rw [← arrived]; exact ⟨rfl, rfl⟩
  have mode : at80.mode = state.mode := by rw [← arrived]; rfl
  rw [terminatorLedger, ← received, ← mode, handle]
  cases table : config.table with
  | etm33 =>
      have type : (config.typeOf 0x80).decode = some .pheader := by
        rw [Config.typeOf, table]
        rfl
      simp only [type, decode, Bind.bind, EStateM.bind, pheader_terminator data]
      cases config.cycleAccurate with
      | true => exact ⟨at80.wait 1, rfl, ⟨left.input, left.others⟩, rfl⟩
      | false => exact ⟨at80, rfl, left, rfl⟩
  | pft =>
      have type : (config.typeOf 0x80).decode = some .atom := by
        rw [Config.typeOf, table]
        rfl
      simp only [type, decode, Bind.bind, EStateM.bind, atom_terminator data]
      cases config.cycleAccurate with
      | true =>
          refine ⟨_, rfl, ⟨left.input, left.others⟩, ?_⟩
          rw [if_pos rfl, State.ledger_printInstruction, State.ledger_print]
          rfl
      | false => exact ⟨at80, rfl, left, rfl⟩

theorem LeavesRest.plain {s t : State} {rest : List Byte} (leaves : LeavesRest s t rest)
    (plain : s.useFormatter = false) : t.useFormatter = false :=
  (State.field_eq State.between State.useFormatter (fun _ => rfl) leaves.others).trans plain

theorem LeavesRest.trans {s t u : State} {rest later : List Byte}
    (front : LeavesRest s t rest) (back : LeavesRest t u later) : LeavesRest s u later := by
  refine ⟨back.input, ?_⟩
  have shown : ∀ state : State, (state.feed later).between = state.between.feed later :=
    fun _ => rfl
  rw [back.others, shown t, front.others]
  rfl

theorem packets_zeros (config : Config) (zeros : Nat) {state : State} {rest : List Byte}
    (plain : state.useFormatter = false)
    (input : state.input = List.replicate zeros 0x00 ++ rest) :
    ∃ t, packets config zeros state = .ok () t ∧ LeavesRest state t rest ∧
      t.ledger = state.ledger := by
  induction zeros generalizing state with
  | zero =>
      refine ⟨state, rfl, ⟨input, ?_⟩, rfl⟩
      rw [List.replicate_zero, List.nil_append] at input
      rw [← input]
      rfl
  | succ zeros ih =>
      obtain ⟨middle, once, leaves, same⟩ := packet_zero config plain input
      obtain ⟨final, others, leavesRest, same'⟩ := ih (leaves.plain plain) leaves.input
      refine ⟨final, ?_, leaves.trans leavesRest, same'.trans same⟩
      simp only [packets, repeatDown, Bind.bind, EStateM.bind, once]
      exact others

theorem decodes_async (config : Config) {state : State} (plain : state.useFormatter = false) :
    ∃ after, Decodes config state asyncBytes after ∧
      after.between = (state.feed []).between ∧
      after.ledger = terminatorLedger config state.mode state.ledger := by
  have fedPlain : (state.feed asyncBytes).useFormatter = false := plain
  have fed : (state.feed asyncBytes).input = List.replicate 5 0x00 ++ [0x80] := rfl
  obtain ⟨middle, zeros, leaves, same⟩ := packets_zeros config 5 fedPlain fed
  obtain ⟨after, last, leavesNone, ledger⟩ :=
    packet_terminator config (leaves.plain fedPlain) leaves.input
  have through := leaves.trans leavesNone
  refine ⟨after, ⟨5 + 1, ?_, through.input⟩, through.others, ?_⟩
  · rw [packets, repeatDown_add 5 1 _ zeros]
    simp only [repeatDown, Bind.bind, EStateM.bind, last]
    rfl
  · have mode := State.field_eq State.between State.mode (fun _ => rfl) leaves.others
    rw [ledger, same, mode]
    rfl

/-! ## With and without an A-sync -/

/-- What the decoding of two strings has in common if neither the instructions
printed nor what is known of the next one tells them apart. -/
structure SameOutcome (s t : State) : Prop where
  calls : calls s.log = calls t.log
  iaddr : s.iaddr = t.iaddr
  pc : s.pc = t.pc
  mode : s.mode = t.mode
  waitCount : s.waitCount = t.waitCount
  branchCount : s.branchCount = t.branchCount
  timestamp : s.timestamp = t.timestamp

namespace Ledger

theorem kept_eq (config : Config) : Kept config Eq where
  printInstruction := by rintro mode execute u _ rfl; rfl
  wait := by rintro count u _ rfl; rfl
  goTo := by rintro addr u _ rfl; rfl

/-- The second run has waited one cycle more, and it shows as soon as an
instruction is printed. -/
def WaitsMore (u v : Ledger) : Prop :=
  (u.calls = v.calls ∧ v.waitCount = u.waitCount + 1) ∨
    (u.calls.length = v.calls.length ∧ u.calls ≠ v.calls)

theorem kept_waitsMore (config : Config) : Kept config WaitsMore where
  printInstruction := by
    rintro mode execute u v (⟨calls, wait⟩ | ⟨length, differ⟩)
    · refine .inr ⟨by simp [printInstruction, calls], ?_⟩
      intro same
      have last := (List.append_inj' same rfl).2
      simp only [List.cons.injEq, Call.mk.injEq, and_true] at last
      omega
    · refine .inr ⟨by simp [printInstruction, length], ?_⟩
      intro same
      exact differ (List.append_inj_left same length)
  wait := by
    rintro count u v (⟨calls, wait⟩ | differ)
    · refine .inl ⟨calls, ?_⟩
      simp only [Ledger.wait, wait]
      omega
    · exact .inr differ
  goTo := by
    rintro addr u v (alike | differ)
    · exact .inl alike
    · exact .inr differ

/-- The second run has printed one instruction more. -/
def PrintsMore (u v : Ledger) : Prop :=
  v.calls.length = u.calls.length + 1

theorem kept_printsMore (config : Config) : Kept config PrintsMore where
  printInstruction := by
    intro mode execute u v more
    simp only [PrintsMore, printInstruction, List.length_append, List.length_singleton]
    exact congrArg (· + 1) more
  wait := fun _ _ _ more => more
  goTo := fun _ _ _ more => more

end Ledger

section Transparent
variable {config : Config} {start middle final : State} {first second : List Byte}

/-- What ties the ledgers before and after the A-sync ties them at the end. -/
theorem decodes_around {tied : Ledger → Ledger → Prop} (kept : Ledger.Kept config tied)
    (plain : start.useFormatter = false) (front : Decodes config start first middle)
    (back : Decodes config middle second final)
    (atAsync : tied middle.ledger (terminatorLedger config middle.mode middle.ledger)) :
    ∃ withAsync, Decodes config start (first ++ asyncBytes ++ second) withAsync ∧
      ApartBetween tied final withAsync := by
  obtain ⟨after, async, others, ledger⟩ := decodes_async config (front.plain plain)
  obtain ⟨count, run, ended⟩ := back
  have apart : ApartBetween tied (middle.feed second) (after.feed second) := by
    refine ⟨?_, ?_⟩
    · have shown : ∀ state : State, (state.feed second).between = state.between.feed second :=
        fun _ => rfl
      rw [shown after, others]
      rfl
    · have same : (after.feed second).ledger = after.ledger := rfl
      rw [same, ledger]
      exact atAsync
  obtain ⟨withAsync, run', apart'⟩ := (keeps_packets_apart kept count).returns apart run
  have input := State.field_eq State.between State.input (fun _ => rfl) apart'.1
  refine ⟨withAsync, ?_, apart'⟩
  exact (front.append plain async).append plain ⟨count, run', by rw [← input, ended]⟩

theorem ApartBetween.sameOutcome {s t : State} (apart : ApartBetween Eq s t) :
    SameOutcome t s := by
  obtain ⟨between, ledger⟩ := apart
  exact {
    calls := (congrArg Ledger.calls ledger).symm
    iaddr := (State.field_eq State.between State.iaddr (fun _ => rfl) between).symm
    pc := (congrArg Ledger.pc ledger).symm
    mode := (State.field_eq State.between State.mode (fun _ => rfl) between).symm
    waitCount := (congrArg Ledger.waitCount ledger).symm
    branchCount := (congrArg Ledger.branchCount ledger).symm
    timestamp := (State.field_eq State.between State.timestamp (fun _ => rfl) between).symm }

theorem decodes_withAsync (plain : start.useFormatter = false)
    (front : Decodes config start first middle) (back : Decodes config middle second final) :
    ∃ withAsync, Decodes config start (first ++ asyncBytes ++ second) withAsync ∧
      (SameOutcome withAsync final ↔ config.cycleAccurate = false) := by
  cases cycles : config.cycleAccurate with
  | false =>
      have quiet : terminatorLedger config middle.mode middle.ledger = middle.ledger := by
        rw [terminatorLedger, cycles]
        rfl
      obtain ⟨withAsync, decodes, apart⟩ :=
        decodes_around (Ledger.kept_eq config) plain front back quiet.symm
      exact ⟨withAsync, decodes, iff_of_true apart.sameOutcome rfl⟩
  | true =>
      cases table : config.table with
      | etm33 =>
          have waits : Ledger.WaitsMore middle.ledger
              (terminatorLedger config middle.mode middle.ledger) := by
            rw [terminatorLedger, cycles, table]
            exact .inl ⟨rfl, rfl⟩
          obtain ⟨withAsync, decodes, _, more⟩ :=
            decodes_around (Ledger.kept_waitsMore config) plain front back waits
          refine ⟨withAsync, decodes, iff_of_false ?_ (by simp)⟩
          intro same
          rcases more with ⟨_, wait⟩ | ⟨_, differ⟩
          · have equal : withAsync.ledger.waitCount = final.ledger.waitCount := same.waitCount
            omega
          · exact differ same.calls.symm
      | pft =>
          have prints : Ledger.PrintsMore middle.ledger
              (terminatorLedger config middle.mode middle.ledger) := by
            rw [terminatorLedger, cycles, table]
            simp [Ledger.PrintsMore, Ledger.printInstruction]
          obtain ⟨withAsync, decodes, _, more⟩ :=
            decodes_around (Ledger.kept_printsMore config) plain front back prints
          refine ⟨withAsync, decodes, iff_of_false ?_ (by simp)⟩
          intro same
          have equal : withAsync.ledger.calls.length = final.ledger.calls.length :=
            congrArg List.length same.calls
          rw [Ledger.PrintsMore] at more
          omega

theorem async_transparent_iff (plain : start.useFormatter = false)
    (front : Decodes config start first middle) (back : Decodes config middle second final) :
    (∃ withAsync, Decodes config start (first ++ asyncBytes ++ second) withAsync) ∧
      (∃ without, Decodes config start (first ++ second) without) ∧
      ∀ withAsync without, Decodes config start (first ++ asyncBytes ++ second) withAsync →
        Decodes config start (first ++ second) without →
          (SameOutcome withAsync without ↔ config.cycleAccurate = false) := by
  have direct := front.append plain back
  obtain ⟨found, decodes, transparent⟩ := decodes_withAsync plain front back
  refine ⟨⟨found, decodes⟩, ⟨final, direct⟩, ?_⟩
  intro withAsync without decodes' direct'
  rw [decodes'.unique plain decodes, direct'.unique plain direct]
  exact transparent

end Transparent

def inSyncStart : State :=
  { State.start false 0 [] with sync := 1 }

/-- An `Ignore` packet, and a P-header with one executed instruction. -/
theorem async_transparent_iff_instructions :
    ∃ withAsync without,
      Decodes { defaultEtm33 with cycleAccurate := false } inSyncStart
        ([0x66] ++ asyncBytes ++ [0x84]) withAsync ∧
      Decodes { defaultEtm33 with cycleAccurate := false } inSyncStart
        ([0x66] ++ [0x84]) without ∧
      SameOutcome withAsync without := by
  have front : Decodes { defaultEtm33 with cycleAccurate := false } inSyncStart [0x66]
      (inSyncStart.receive 0x66) := ⟨1, rfl, rfl⟩
  have back : Decodes { defaultEtm33 with cycleAccurate := false }
      (inSyncStart.receive 0x66) [0x84]
      (((inSyncStart.receive 0x66).receive 0x84).printInstruction defaultEtm33 true) :=
    ⟨1, rfl, rfl⟩
  obtain ⟨⟨withAsync, decodes⟩, ⟨without, direct⟩, transparent⟩ :=
    async_transparent_iff rfl front back
  exact ⟨withAsync, without, decodes, direct, (transparent _ _ decodes direct).mpr rfl⟩

theorem async_adds_wait :
    ∃ withAsync without,
      Decodes defaultEtm33 inSyncStart ([0x66] ++ asyncBytes ++ [0x84]) withAsync ∧
      Decodes defaultEtm33 inSyncStart ([0x66] ++ [0x84]) without ∧
      calls withAsync.log = [⟨0, true, 2⟩] ∧ calls without.log = [⟨0, true, 1⟩] ∧
      ¬ SameOutcome withAsync without := by
  refine ⟨stateOf (packets defaultEtm33 8
      (inSyncStart.feed ([0x66] ++ asyncBytes ++ [0x84]))),
    stateOf (packets defaultEtm33 2 (inSyncStart.feed ([0x66] ++ [0x84]))),
    ⟨8, rfl, rfl⟩, ⟨2, rfl, rfl⟩, by decide +kernel, by decide +kernel, ?_⟩
  intro same
  have calls := same.calls
  revert calls
  decide +kernel

end ImxTest.Etm
