import ImxTest.Etm.Packets

/-!
# Traces and the bytes they are sent in

`Packet` lists the packets that a trace unit may send from a place and the events
that each stands for; a trace is a string of them, each sent from where the ones
before it lead.  Decoding any such string prints the lines of its events.

Left out are the packets that the decoders do not read as the unit sends them:
normal data of four bytes, and between packets with cycle counts the last byte of
an A-sync, which is taken for one of them.  Waypoint updates are left out too; the
script does not react to them.
-/

set_option autoImplicit false

namespace ImxTest.Etm

open ImxTest.Lib.BitGroups

/-! ## Traces -/

/-- The packets that a trace unit may send from a place, and what they stand for. -/
inductive Packet (config : Config) (place : Place) : List Byte → List Event → Prop where
  | quiet {ch : Byte} {bytes : List Byte} (quiet : Quiet config ch bytes) :
      Packet config place (ch :: bytes) []
  | branch (packet : BranchPacket config.altBranch place.mode place.anchor)
      (known : place.valid = 0xffffffff) (low : packet.low = true) {data : List Byte}
      (exceptionBytes : ExceptionBytes packet.exception data) (cycles : CycleCount) :
      Packet config place (packet.header :: (packet.bytes ++ data ++ cycles.behind config))
        (branchEvents config.programFlowOnly packet.exception packet.target packet.targetMode)
  | isync (table : config.table = .etm33) (point : SyncPoint) :
      Packet config place (0x08 :: point.bytes config) [.sync point.addr point.mode]
  | isyncWithCycles (table : config.table = .etm33) (point : SyncPoint) (number : Nat)
      {count : Nat} (positive : 1 ≤ count) (most : count ≤ 5) :
      Packet config place (0x70 :: (groupBytes number count 0 ++ point.bytes config))
        [.sync point.addr point.mode]
  | cycles (table : config.table = .etm33) (accurate : config.cycleAccurate = true)
      (header : CycleHeader) : Packet config place [header.byte] header.events
  | instructions (table : config.table = .etm33) (plain : config.cycleAccurate = false)
      (header : InstructionHeader) : Packet config place [header.byte] header.events
  | isyncPft (table : config.table = .pft) (point : SyncPoint) (cycles : CycleCount) :
      Packet config place (0x08 :: point.bytesPft config cycles) [.sync point.addr point.mode]
  | atoms (table : config.table = .pft) (plain : config.cycleAccurate = false)
      {atoms : List Bool} (most : atoms.length ≤ 5) :
      Packet config place [atomHeader atoms] (atoms.map Event.instruction)
  | atomWithCycles (table : config.table = .pft) (accurate : config.cycleAccurate = true)
      (execute : Bool) (number : Nat) {count : Nat} (most : count ≤ 4) :
      Packet config place
        (atomCycleHeader execute (count != 0) number :: groupBytes number count 4)
        [.instruction execute]

inductive Encodes (config : Config) : Place → List Byte → List Event → Prop where
  | nil (place : Place) : Encodes config place [] []
  | cons {place : Place} {bytes more : List Byte} {events moreEvents : List Event}
      (packet : Packet config place bytes events)
      (rest : Encodes config (place.after config.programFlowOnly events) more moreEvents) :
      Encodes config place (bytes ++ more) (events ++ moreEvents)

section Headers
variable {config : Config}

theorem typeOf_branchHeader (more : Bool) (addr : Nat) :
    (config.typeOf (branchHeader more addr true)).decode =
      some (config.table.choose .branch .branchPft) := by
  have types : ∀ (more : Bool) (six : BitVec 6) (table : Table),
      let header : Byte := BitVec.ofBool more ++ six ++ BitVec.ofBool true
      ((table.packetTypes.find? fun type => type.isMatch header).getD unknownType).decode =
        some (table.choose .branch .branchPft) := by
    intro more six table
    cases table with
    | etm33 => revert more six; decide +kernel
    | pft => revert more six; decide +kernel
  exact types more _ config.table

theorem typeOf_pheader (table : config.table = .etm33) {ch : Byte} (bits : ch &&& 0x81 = 0x80) :
    (config.typeOf ch).decode = some .pheader := by
  rw [Config.typeOf, table]
  revert ch
  decide +kernel

theorem typeOf_atom (table : config.table = .pft) {ch : Byte} (bits : ch &&& 0x81 = 0x80) :
    (config.typeOf ch).decode = some .atom := by
  rw [Config.typeOf, table]
  revert ch
  decide +kernel

theorem CycleHeader.byte_bits (header : CycleHeader) : header.byte &&& 0x81 = 0x80 := by
  have first : ∀ (count : BitVec 3) (last other : Bool),
      (1#1 ++ BitVec.ofBool last ++ BitVec.ofBool other ++ count ++ 0#2 : Byte) &&& 0x81 = 0x80 := by
    decide
  cases header with
  | format0 => rfl
  | format1 count last some => exact first count last false
  | format2 first second => cases first <;> cases second <;> rfl
  | format3 count last => exact first count last true
  | format4 execute => cases execute <;> rfl

theorem InstructionHeader.byte_bits (header : InstructionHeader) :
    header.byte &&& 0x81 = 0x80 := by
  cases header with
  | format1 count last => revert count last; decide
  | format2 first second => cases first <;> cases second <;> rfl

theorem atomHeader_bits {atoms : List Bool} (most : atoms.length ≤ 5) :
    atomHeader atoms &&& 0x81 = 0x80 := by
  match atoms, most with
  | [], _ => rfl
  | [a], _ => revert a; decide
  | [a, b], _ => revert a b; decide
  | [a, b, c], _ => revert a b c; decide
  | [a, b, c, d], _ => revert a b c d; decide
  | [a, b, c, d, e], _ => revert a b c d e; decide +kernel

theorem atomCycleHeader_bits (execute more : Bool) (number : Nat) :
    atomCycleHeader execute more number &&& 0x81 = 0x80 := by
  have bits : ∀ (execute more : Bool) (four : BitVec 4),
      (BitVec.ofBool true ++ BitVec.ofBool more ++ four ++
        (BitVec.ofBool (!execute) ++ 0#1) : Byte) &&& 0x81 = 0x80 := by decide
  exact bits execute more _

end Headers

section Traces
variable {config : Config} {place : Place} {bytes : List Byte} {events : List Event}

theorem reads_pheaderCycles (accurate : config.cycleAccurate = true) (header : CycleHeader) :
    Reads header.byte (pheader config) [] place
      (place.reports config.programFlowOnly header.events)
      (place.after config.programFlowOnly header.events) (fun value => value = 0) := by
  rw [pheader, accurate]
  refine Reads.data ?_
  refine (performs_pheaderCycles header).reads.bind_quiet ?_
  intro _ _ _
  exact reads_pure 0

theorem reads_pheaderInstructions (plain : config.cycleAccurate = false)
    (header : InstructionHeader) :
    Reads header.byte (pheader config) [] place
      (place.reports config.programFlowOnly header.events)
      (place.after config.programFlowOnly header.events) (fun value => value = 0) := by
  rw [pheader, plain]
  refine Reads.data ?_
  refine (performs_pheaderInstructions header).reads.bind_quiet ?_
  intro _ _ _
  exact reads_pure 0

theorem reads_branchPacket (packet : BranchPacket config.altBranch place.mode place.anchor)
    (known : place.valid = 0xffffffff) (low : packet.low = true) {data : List Byte}
    (exceptionBytes : ExceptionBytes packet.exception data) (cycles : CycleCount) :
    Reads packet.header (handle config packet.header)
      (packet.bytes ++ data ++ cycles.behind config) place
      (place.reports config.programFlowOnly
        (branchEvents config.programFlowOnly packet.exception packet.target packet.targetMode))
      (place.after config.programFlowOnly
        (branchEvents config.programFlowOnly packet.exception packet.target packet.targetMode))
      (fun _ => True) := by
  have type : (config.typeOf packet.header).decode =
      some (config.table.choose .branch .branchPft) := by
    rw [BranchPacket.header, low]
    exact typeOf_branchHeader _ _
  have reads := reads_branch packet known exceptionBytes
  cases table : config.table with
  | etm33 =>
      rw [table] at type
      rw [CycleCount.behind, table, List.append_nil]
      exact reads_handle type reads
  | pft =>
      rw [table] at type
      exact reads_handle type (reads.thenCycleCount table cycles)

/-- One pass of the main loop decodes one packet. -/
theorem Packet.reads (sent : Packet config place bytes events) (last : Byte) :
    Reads last (packet config) bytes place (place.reports config.programFlowOnly events)
      (place.after config.programFlowOnly events) (fun _ => True) := by
  cases sent with
  | quiet quiet => exact Reads.getByte quiet.reads
  | branch packet known low exceptionBytes cycles =>
      exact Reads.getByte (reads_branchPacket packet known low exceptionBytes cycles)
  | isync table point =>
      have type : (config.typeOf 0x08).decode = some .isync := by
        rw [Config.typeOf, table]
        rfl
      exact Reads.getByte (reads_handle type (reads_isync point))
  | isyncWithCycles table point number positive most =>
      have type : (config.typeOf 0x70).decode = some .isynccc := by
        rw [Config.typeOf, table]
        rfl
      refine Reads.getByte (reads_handle type ?_)
      refine (reads_ccount number positive most).bind ?_
      intro _ _ _
      exact reads_isync point
  | cycles table accurate header =>
      exact Reads.getByte (reads_handle (typeOf_pheader table header.byte_bits)
        (reads_pheaderCycles accurate header))
  | instructions table plain header =>
      exact Reads.getByte (reads_handle (typeOf_pheader table header.byte_bits)
        (reads_pheaderInstructions plain header))
  | isyncPft table point cycles =>
      have type : (config.typeOf 0x08).decode = some .isyncPft := by
        rw [Config.typeOf, table]
        rfl
      exact Reads.getByte (reads_handle type (reads_isyncPft point cycles))
  | atoms table plain most =>
      exact Reads.getByte
        (reads_handle (typeOf_atom table (atomHeader_bits most)) (reads_atoms plain most))
  | atomWithCycles table accurate execute number most =>
      exact Reads.getByte (reads_handle (typeOf_atom table (atomCycleHeader_bits _ _ _))
        (reads_atomWithCycles accurate execute number most))

/-- Whole packets are decoded one after the other. -/
theorem Encodes.decodes (encodes : Encodes config place bytes events) {printed : List Report}
    {state : State} {rest : List Byte} (tracks : Tracks place printed state)
    (supply : state.supply = bytes ++ rest) :
    ∃ count final, packets config count state = .ok () final ∧ final.supply = rest ∧
      Tracks (place.after config.programFlowOnly events)
        (printed ++ place.reports config.programFlowOnly events) final := by
  induction encodes generalizing printed state with
  | nil place =>
      rw [Place.reports, List.append_nil]
      exact ⟨0, state, rfl, supply, tracks⟩
  | @cons place bytes more events moreEvents packet _ ih =>
      rw [List.append_assoc] at supply
      obtain ⟨_, middle, once, _, left, tracks'⟩ := packet.reads state.data tracks rfl supply
      obtain ⟨count, final, run, left', there⟩ := ih tracks' left
      rw [Place.after_append, Place.reports_append, ← List.append_assoc]
      exact ⟨1 + count, final, (repeatDown_add 1 count _ (packets_one once)).trans run, left',
        there⟩

end Traces

/-! ## Every trace can be sent -/

namespace Event

/-- What can be said at a place: waiting only where cycles are counted, and addresses
that the instruction set has. -/
def Sendable (config : Config) (place : Place) : Event → Prop
  | .wait => config.table = .etm33 ∧ config.cycleAccurate = true
  | .instruction _ => True
  | .jump addr mode => place.valid = 0xffffffff ∧ addr.toNat % 2 ^ mode.shift = 0
  | .sync addr mode => mode ≠ .jazelle → addr &&& 1 = 0

end Event

def Sendable (config : Config) : Place → List Event → Prop
  | _, [] => True
  | place, event :: rest =>
      event.Sendable config place ∧
        Sendable config (place.step config.programFlowOnly event) rest

section Sendable
variable {config : Config} {place : Place}

/-- Five bytes lead anywhere. -/
def BranchPacket.whole (altBranch : Bool) (mode : Mode) (iaddr target : Word) (targetMode : Mode)
    (exception : Bool) (aligned : target.toNat % 2 ^ targetMode.shift = 0) :
    BranchPacket altBranch mode iaddr where
  target := target
  targetMode := targetMode
  exception := exception
  low := true
  length := 5
  aligned := aligned
  positive := by omega
  most := Nat.le_refl 5
  flagged := fun _ => .inl rfl
  sameMode := fun less => absurd less (Nat.lt_irrefl 5)
  sufficient := fun less => absurd less (Nat.lt_irrefl 5)

def SyncPoint.at (addr : Word) (mode : Mode) (aligned : mode ≠ .jazelle → addr &&& 1 = 0) :
    SyncPoint where
  addr := addr
  mode := mode
  ib := if mode = .jazelle then 0x10 else 0
  contextid := 0
  jazelle := by
    cases mode with
    | jazelle => decide
    | thumb => decide
    | arm => decide
  aligned := aligned

def CycleCount.none : CycleCount :=
  ⟨false, 0, 0, 0, Nat.zero_le 4⟩

theorem packet_instruction (config : Config) (place : Place) (execute : Bool) :
    ∃ bytes, Packet config place bytes [.instruction execute] := by
  cases table : config.table with
  | etm33 =>
      cases accurate : config.cycleAccurate with
      | true => exact ⟨_, .cycles table accurate (.format4 execute)⟩
      | false =>
          cases execute with
          | true => exact ⟨_, .instructions table accurate (.format1 1 false)⟩
          | false => exact ⟨_, .instructions table accurate (.format1 0 true)⟩
  | pft =>
      cases accurate : config.cycleAccurate with
      | true => exact ⟨_, .atomWithCycles table accurate execute 0 (Nat.zero_le 4)⟩
      | false =>
          have one : [execute].length ≤ 5 := by
            rw [List.length_singleton]
            omega
          exact ⟨_, .atoms table accurate one⟩

theorem packet_jump {addr : Word} {mode : Mode} (known : place.valid = 0xffffffff)
    (aligned : addr.toNat % 2 ^ mode.shift = 0) :
    ∃ bytes, Packet config place bytes [.jump addr mode] := by
  let packet := BranchPacket.whole config.altBranch place.mode place.anchor addr mode
    config.programFlowOnly aligned
  have events : branchEvents config.programFlowOnly packet.exception packet.target
      packet.targetMode = [.jump addr mode] := by
    change branchEvents config.programFlowOnly config.programFlowOnly addr mode = _
    cases config.programFlowOnly with
    | true => rfl
    | false => rfl
  rw [← events]
  cases exception : packet.exception with
  | true =>
      rw [← exception]
      have one : ExceptionBytes packet.exception [0] := by
        rw [exception]
        exact .one rfl
      exact ⟨_, .branch packet known rfl one .none⟩
  | false =>
      rw [← exception]
      have no : ExceptionBytes packet.exception [] := by
        rw [exception]
        exact .none
      exact ⟨_, .branch packet known rfl no .none⟩

theorem packet_exists {event : Event} (sendable : event.Sendable config place) :
    ∃ bytes, Packet config place bytes [event] := by
  cases event with
  | wait => exact ⟨_, .cycles sendable.1 sendable.2 .format0⟩
  | instruction execute => exact packet_instruction config place execute
  | jump addr mode => exact packet_jump sendable.1 sendable.2
  | sync addr mode =>
      cases table : config.table with
      | etm33 => exact ⟨_, .isync table (.at addr mode sendable)⟩
      | pft => exact ⟨_, .isyncPft table (.at addr mode sendable) .none⟩

theorem encodes_exists {events : List Event} (sendable : Sendable config place events) :
    ∃ bytes, Encodes config place bytes events := by
  induction events generalizing place with
  | nil => exact ⟨[], .nil place⟩
  | cons event rest ih =>
      obtain ⟨bytes, packet⟩ := packet_exists sendable.1
      obtain ⟨more, encodes⟩ := ih sendable.2
      exact ⟨bytes ++ more, .cons packet encodes⟩

end Sendable

/-! ## From the start of a file -/

def Place.unknown : Place where
  mode := .jazelle
  anchor := 0
  valid := 0
  pc := 0
  points := 0
  waited := 0

/-- What the last byte of an A-sync is taken for. -/
def asyncEvents (config : Config) : List Event :=
  if config.cycleAccurate then
    match config.table with
    | .etm33 => [.wait]
    | .pft => [.instruction true]
  else []

def Place.first (config : Config) : Place :=
  Place.unknown.after config.programFlowOnly (asyncEvents config)

section Start
variable {config : Config}

theorem packet_asyncEnd (config : Config) (place : Place) :
    Packet config place [0x80] (asyncEvents config) := by
  unfold asyncEvents
  cases accurate : config.cycleAccurate with
  | false => exact .quiet (.asyncEnd accurate)
  | true =>
      cases table : config.table with
      | etm33 => exact .cycles table accurate .format0
      | pft => exact .atomWithCycles table accurate true 0 (Nat.zero_le 4)

/-- None of it is shown, since no address is valid. -/
theorem reports_asyncEvents (config : Config) :
    Place.unknown.reports config.programFlowOnly (asyncEvents config) = [] := by
  unfold asyncEvents
  split
  · split
    · rfl
    · rfl
  · rfl

theorem packet_zeroByte (config : Config) {state : State} {rest : List Byte}
    (supply : state.supply = 0x00 :: rest) :
    ∃ formatter input, packet config state =
        .ok () ((state.advance formatter input).receive 0x00) ∧
      ((state.advance formatter input).receive 0x00).supply = rest := by
  have type : (config.typeOf 0x00).decode = some .async := by
    rw [Config.typeOf]
    cases config.table <;> rfl
  obtain ⟨formatter, input, returned, left⟩ := getByte_supply supply
  refine ⟨formatter, input, ?_, left⟩
  rw [packet, bind_of_ok returned, handle, type]
  rfl

/-- The decoder before its first A-sync, with some zero bytes of it counted. -/
structure Counts (zeros : Nat) (state : State) : Prop where
  sync : state.sync = -zeros
  others : Tracks Place.unknown [] { state with sync := 1 }

theorem Counts.zero {zeros : Nat} {state : State} (counts : Counts zeros state) (less : zeros < 4)
    (formatter : Formatter) (input : List Byte) :
    Counts (zeros + 1) ((state.advance formatter input).receive 0x00) := by
  have counted : State.countZero state.sync 0x00 = -((zeros + 1 : Nat) : Int) := by
    rw [counts.sync, State.countZero, if_pos ⟨rfl, by omega⟩, if_neg (by omega)]
    omega
  exact {
    sync := counted
    others := {
      sync := Int.one_pos
      valid := counts.others.valid
      mode := counts.others.mode
      iaddr := counts.others.iaddr
      pc := counts.others.pc
      branchCount := counts.others.branchCount
      waitCount := counts.others.waitCount
      printed := by
        have before : reports state.log = [] := counts.others.printed
        simp only [State.receive, State.advance, reports_snoc, before]
        rfl } }

theorem Counts.last {state : State} (counts : Counts 4 state) (formatter : Formatter)
    (input : List Byte) :
    Tracks Place.unknown [] ((state.advance formatter input).receive 0x00) := by
  have counted : State.countZero state.sync 0x00 = 1 := by
    rw [counts.sync]
    rfl
  exact {
    sync := lt_of_lt_of_eq Int.one_pos counted.symm
    valid := counts.others.valid
    mode := counts.others.mode
    iaddr := counts.others.iaddr
    pc := counts.others.pc
    branchCount := counts.others.branchCount
    waitCount := counts.others.waitCount
    printed := by
      have before : reports state.log = [] := counts.others.printed
      simp only [State.receive, State.advance, reports_snoc, before]
      rfl }

/-- From `zeros` zero bytes on to the fifth. -/
theorem Counts.decodes (config : Config) {left zeros : Nat} {state : State}
    (counts : Counts zeros state) (all : zeros + left = 4) {rest : List Byte}
    (supply : state.supply = List.replicate (left + 1) 0x00 ++ rest) :
    ∃ after, packets config (left + 1) state = .ok () after ∧ after.supply = rest ∧
      Tracks Place.unknown [] after := by
  induction left generalizing zeros state with
  | zero =>
      obtain rfl : zeros = 4 := all
      obtain ⟨formatter, input, once, behind⟩ := packet_zeroByte config supply
      exact ⟨_, packets_one once, behind, counts.last formatter input⟩
  | succ left ih =>
      obtain ⟨formatter, input, once, behind⟩ := packet_zeroByte config supply
      obtain ⟨after, run, behind', tracks⟩ :=
        ih (counts.zero (by omega) formatter input) (by omega) behind
      exact ⟨after, (bind_of_ok once fun _ => packets config (left + 1)).trans run, behind',
        tracks⟩

/-- What a file holds: the bytes of the trace, or frames in which the formatter finds
them under the selected IDs. -/
inductive Carries (sourceidMatch : Word) : Bool → List Byte → List Byte → Prop where
  | plain (bytes : List Byte) : Carries sourceidMatch false bytes bytes
  | frames {frames : List Frame} {partFrame : List Byte}
      (wellFormed : ∀ frame ∈ frames, WellFormed frame) (short : partFrame.length < 16) :
      Carries sourceidMatch true (frames.flatMap List.ofFn ++ partFrame)
        (selectedBytes sourceidMatch (demultiplex 0 none (frames.flatMap frameSymbols)))

theorem Carries.supply {sourceidMatch : Word} {useFormatter : Bool} {input bytes : List Byte}
    (carries : Carries sourceidMatch useFormatter input bytes) :
    (State.start useFormatter sourceidMatch input).supply = bytes := by
  cases carries with
  | plain bytes => rfl
  | frames wellFormed short =>
      have same := Formatter.restBytes_frames wellFormed short (Formatter.start sourceidMatch)
        rfl rfl
      rw [← Formatter.formatterBytes_eq] at same
      exact same

/-- At the end of the file the program exits, after a line that the script does not
react to. -/
theorem packets_exit (config : Config) {place : Place} {printed : List Report} {state : State}
    (tracks : Tracks place printed state) (ended : state.supply = []) :
    ∃ final, packets config 1 state = .error () final ∧ reports final.log = printed := by
  have stops := getByte_ended ended
  split at stops
  · have waited : Tracks place printed (state.print (.waited state.waitCount)) :=
      tracks.printQuietly rfl
    refine ⟨_, ?_, waited.printed⟩
    simp only [packets, repeatDown, packet, Bind.bind, EStateM.bind, stops]
  · refine ⟨_, ?_, tracks.printed⟩
    simp only [packets, repeatDown, packet, Bind.bind, EStateM.bind, stops]

/-- The program decodes a file that holds an A-sync and a trace up to its end. -/
theorem decodes_file {bytes input : List Byte} {events : List Event} {useFormatter : Bool}
    {sourceidMatch : Word} (encodes : Encodes config (Place.first config) bytes events)
    (carries : Carries sourceidMatch useFormatter input (asyncBytes ++ bytes)) :
    ∃ count final, packets config count (State.start useFormatter sourceidMatch input) =
        .error () final ∧
      reports final.log = (Place.first config).reports config.programFlowOnly events := by
  have atStart : Counts 0 (State.start useFormatter sourceidMatch input) :=
    ⟨rfl, Int.one_pos, rfl, rfl, rfl, rfl, rfl, rfl, rfl⟩
  have supply : (State.start useFormatter sourceidMatch input).supply =
      List.replicate (4 + 1) 0x00 ++ ([0x80] ++ bytes) := carries.supply
  obtain ⟨after, zeros, left, tracks⟩ := atStart.decodes config (Nat.zero_add 4) supply
  have all := Encodes.cons (packet_asyncEnd config Place.unknown) encodes
  rw [← List.append_nil ([0x80] ++ bytes)] at left
  obtain ⟨count, final, run, ended, there⟩ := all.decodes tracks left
  obtain ⟨exited, exits, lines⟩ := packets_exit config there ended
  refine ⟨4 + 1 + (count + 1), exited, ?_, ?_⟩
  · rw [packets, repeatDown_add _ _ _ zeros, repeatDown_add _ _ _ run]
    exact exits
  · rw [lines, Place.reports_append, reports_asyncEvents]
    rfl

end Start

end ImxTest.Etm
