import ImxTest.Etm.Trace

/-!
# The bytes of a packet

What each decoder makes of the bytes that a packet may consist of: the lines that it
prints and the place that it leads to.  `Reads` says so of a part of a decoder, and
the parts are put together as the decoders are.  A packet may have any length that
brings enough of its number or address.
-/

set_option autoImplicit false

namespace ImxTest.Etm

open ImxTest.Lib.BitGroups

/-! ## Decoders that read some bytes -/

/-- With `ch` as the last byte, `body` reads these bytes, prints these lines on the way
from one place to the other and returns what is said. -/
def Reads {Value : Type} (ch : Byte) (body : Decode Value) (bytes : List Byte) (place : Place)
    (lines : List Report) (place' : Place) (returns : Value → Prop) : Prop :=
  ∀ ⦃printed state rest⦄, Tracks place printed state → state.data = ch →
    state.supply = bytes ++ rest →
      ∃ value after, body state = .ok value after ∧ returns value ∧ after.supply = rest ∧
        Tracks place' (printed ++ lines) after

section Reads
variable {Value Next : Type} {config : Config} {ch : Byte} {place place' place'' : Place}
variable {bytes more : List Byte} {lines moreLines : List Report}
variable {returns : Value → Prop} {nextReturns : Next → Prop}

theorem Reads.bind {body : Decode Value} {next : Value → Decode Next}
    (first : Reads ch body bytes place lines place' returns)
    (second : ∀ value last, returns value →
      Reads last (next value) more place' moreLines place'' nextReturns) :
    Reads ch (body >>= next) (bytes ++ more) place (lines ++ moreLines) place''
      nextReturns := by
  intro printed state rest tracks data supply
  rw [List.append_assoc] at supply
  obtain ⟨value, middle, firstRun, returned, left, tracks'⟩ := first tracks data supply
  obtain ⟨result, after, secondRun, returned', left', tracks''⟩ :=
    second value middle.data returned tracks' rfl left
  rw [← List.append_assoc]
  exact ⟨result, after, (bind_of_ok firstRun next).trans secondRun, returned', left', tracks''⟩

/-- The last part may print nothing. -/
theorem Reads.bind_quiet {body : Decode Value} {next : Value → Decode Next}
    (first : Reads ch body bytes place lines place' returns)
    (second : ∀ value last, returns value →
      Reads last (next value) more place' [] place'' nextReturns) :
    Reads ch (body >>= next) (bytes ++ more) place lines place'' nextReturns := by
  have both := first.bind second
  rwa [List.append_nil] at both

/-- Or read nothing. -/
theorem Reads.bind_end {body : Decode Value} {next : Value → Decode Next}
    (first : Reads ch body bytes place [] place' returns)
    (second : ∀ value last, returns value →
      Reads last (next value) [] place' lines place'' nextReturns) :
    Reads ch (body >>= next) bytes place lines place'' nextReturns := by
  have both := first.bind second
  rwa [List.append_nil] at both

theorem reads_pure (value : Value) :
    Reads ch (pure value) [] place [] place (fun returned => returned = value) := by
  intro printed state rest tracks _ supply
  rw [List.append_nil]
  exact ⟨value, state, rfl, rfl, supply, tracks⟩

theorem Performs.reads {body : Decode Unit} {events : List Event}
    (performs : Performs config body events) :
    Reads ch body [] place (place.reports config.programFlowOnly events)
      (place.after config.programFlowOnly events) (fun _ => True) := by
  intro printed state rest tracks _ supply
  obtain ⟨after, run, left, tracks'⟩ := performs tracks
  exact ⟨(), after, run, trivial, left.trans supply, tracks'⟩

theorem Reads.weaken {body : Decode Value} {weaker : Value → Prop}
    (reads : Reads ch body bytes place lines place' returns)
    (weaken : ∀ value, returns value → weaker value) :
    Reads ch body bytes place lines place' weaker := by
  intro printed state rest tracks data supply
  obtain ⟨value, after, run, returned, left, tracks'⟩ := reads tracks data supply
  exact ⟨value, after, run, weaken value returned, left, tracks'⟩

theorem Reads.data {next : Byte → Decode Value}
    (reads : Reads ch (next ch) bytes place lines place' returns) :
    Reads ch (read State.data >>= next) bytes place lines place' returns := by
  intro printed state rest tracks data supply
  rw [read_bind, data]
  exact reads tracks data supply

theorem Reads.getByte {next : Byte → Decode Value} {header : Byte}
    (reads : Reads header (next header) bytes place lines place' returns) :
    Reads ch (getByte >>= next) (header :: bytes) place lines place' returns := by
  intro printed state rest tracks _ supply
  obtain ⟨_, _, returned, left⟩ := getByte_supply (supply.trans List.cons_append)
  rw [bind_of_ok returned]
  exact reads (tracks.getByte returned) rfl left

/-- A loop that reads bytes and changes nothing else. -/
theorem reads_of_gives {body : Decode Value}
    (run : ∀ {s t}, Gives s bytes t → ∃ value, body s = .ok value t ∧ returns value) :
    Reads ch body bytes place [] place returns := by
  intro printed state rest tracks _ supply
  obtain ⟨after, gives, left⟩ := gives_supply supply
  obtain ⟨value, decoded, returned⟩ := run gives
  rw [List.append_nil]
  exact ⟨value, after, decoded, returned, left, tracks.gives gives⟩

/-- A line that the script passes over. -/
theorem reads_print {line : State → Line} (quiet : ∀ state, (Entry.line (line state)).report = none) :
    Reads ch (print line) [] place [] place (fun _ => True) := by
  intro printed state rest tracks _ supply
  rw [List.append_nil]
  exact ⟨(), _, rfl, trivial, supply, tracks.printQuietly (quiet state)⟩

/-- Most packets end with such a line. -/
theorem reads_printAndReturn {line : State → Line}
    (quiet : ∀ state, (Entry.line (line state)).report = none) :
    Reads ch (do print line; return (0 : Int)) [] place [] place
      (fun value => value = 0) :=
  (reads_print quiet).bind_end fun _ _ _ => reads_pure 0

end Reads

/-! ## Numbers -/

section Numbers
variable {config : Config} {ch : Byte} {place : Place}

theorem reads_wordBytes (number count : Nat) :
    Reads ch (wordBytes count 0 0) (dataBytes number count 0) place [] place
      (Holds (8 * count) number 0#32) := by
  apply reads_of_gives
  intro s t gives
  obtain ⟨value, decoded, holds⟩ := wordBytes_gives (Holds.start number 0#32) gives
  rw [Nat.zero_add] at holds
  exact ⟨value, decoded, holds⟩

theorem reads_getAddr (word : Word) :
    Reads ch getAddr (dataBytes word.toNat 4 0) place [] place (fun value => value = word) := by
  refine (reads_wordBytes word.toNat 4).weaken ?_
  intro value holds
  rw [holds.eq_ofNat_of_lt word.isLt, BitVec.ofNat_toNat, BitVec.setWidth_eq]

theorem reads_countGroups {left shift count : Nat} {word : Word} (number : Nat)
    (positive : 0 < count) (fits : count ≤ left) (holds : Holds shift number 0#32 word) :
    Reads ch (countGroups left shift word) (groupBytes number count shift) place [] place
      (fun _ => True) := by
  apply reads_of_gives
  intro s t gives
  obtain ⟨value, decoded, _⟩ := countGroups_gives positive fits holds gives
  exact ⟨value, decoded, trivial⟩

theorem reads_printCount (count : Word) :
    Reads ch (printCount config count) [] place [] place (fun value => value = 0) := by
  have longWait : Reads ch
      (onlyIf (config.longWait < count) (print fun _ => .longWait)) [] place [] place
      (fun _ => True) := by
    unfold onlyIf
    split
    · exact reads_print fun _ => rfl
    · exact (reads_pure ()).weaken fun _ _ => trivial
  refine longWait.bind ?_
  intro _ _ _
  exact reads_printAndReturn fun _ => rfl

theorem reads_ccount (number : Nat) {count : Nat} (positive : 1 ≤ count) (most : count ≤ 5) :
    Reads ch (ccount config) (groupBytes number count 0) place [] place
      (fun value => value = 0) := by
  have groups : Reads ch (countGroups 5 0 0) (groupBytes number count 0) place [] place
      (fun _ => True) := reads_countGroups number positive most (Holds.start number 0#32)
  exact groups.bind_end fun count _ _ => reads_printCount count

/-- The groups of a cycle count behind its header. -/
theorem reads_cycleCountPft (top : Bool) (low : BitVec 2) (number : Nat) {count : Nat}
    (most : count ≤ 4) :
    Reads (countHeader top low (count != 0) number) (cycleCountPft config)
      (groupBytes number count 4) place [] place (fun value => value = 0) := by
  have start := countHeader_holds top low (count != 0) number
  have more := countHeader_more top low (count != 0) number
  refine Reads.data ?_
  cases count with
  | zero =>
      rw [if_neg (fun set => Bool.noConfusion (more.mp set))]
      exact (reads_pure _).bind_end fun count _ _ => reads_printCount count
  | succ count =>
      rw [if_pos (more.mpr rfl)]
      refine (reads_countGroups number (Nat.succ_pos count) most start).bind_end ?_
      intro count _ _
      exact reads_printCount count

end Numbers

/-! ## Packets without events -/

structure CycleCount where
  top : Bool
  low : BitVec 2
  number : Nat
  count : Nat
  most : count ≤ 4

def CycleCount.bytes (cycles : CycleCount) : List Byte :=
  countHeader cycles.top cycles.low (cycles.count != 0) cycles.number ::
    groupBytes cycles.number cycles.count 4

/-- The program flow trace sends one after some packets. -/
def CycleCount.behind (config : Config) (cycles : CycleCount) : List Byte :=
  match config.table with
  | .etm33 => []
  | .pft => if config.cycleAccurate then cycles.bytes else []

def timestampHeader (r : Bool) : Byte :=
  0x8#5 ++ BitVec.ofBool r ++ 2#2

/-- The packets that change neither the place nor what is printed of it, by header and
bytes behind it. -/
inductive Quiet (config : Config) : Byte → List Byte → Prop where
  | zero : Quiet config 0x00 []
  | asyncEnd (plain : config.cycleAccurate = false) : Quiet config 0x80 []
  | ignore : Quiet config 0x66 []
  | contextid (number : Nat) :
      Quiet config 0x6e (dataBytes number config.contextidBytes.toNat 0)
  | vmid (vmid : Byte) : Quiet config 0x3c [vmid]
  | timestamp (r : Bool) (number : Nat) {count : Nat} (positive : 1 ≤ count) (most : count ≤ 9)
      (cycles : CycleCount) :
      Quiet config (timestampHeader r) (timestampBytes number count 0 ++ cycles.behind config)
  | cycleCount (table : config.table = .etm33) (number : Nat) {count : Nat}
      (positive : 1 ≤ count) (most : count ≤ 5) :
      Quiet config 0x04 (groupBytes number count 0)
  | data (table : config.table = .etm33) {size : BitVec 2} (short : size ≠ 3) (number : Nat) :
      Quiet config (ndataHeader false size) (dataBytes number size.toNat 0)
  | dataWithAddress (table : config.table = .etm33) {size : BitVec 2} (short : size ≠ 3)
      (number addr : Nat) {count : Nat} (positive : 1 ≤ count) (most : count ≤ 5) :
      Quiet config (ndataHeader true size)
        (groupBytes addr count 0 ++ dataBytes number size.toNat 0)
  | trigger (table : config.table = .pft) : Quiet config 0x0c []
  | exceptionReturn (table : config.table = .pft) : Quiet config 0x76 []

namespace Tracks
variable {place : Place} {printed : List Report} {state : State}

theorem setTimestamp (tracks : Tracks place printed state) (new : BitVec 64) :
    Tracks place printed (state.setTimestamp new) :=
  ⟨tracks.sync, tracks.valid, tracks.mode, tracks.iaddr, tracks.pc,
    tracks.branchCount, tracks.waitCount, tracks.printed⟩

theorem setDaddr (tracks : Tracks place printed state) (daddr : Word) :
    Tracks place printed (state.setDaddr daddr) :=
  ⟨tracks.sync, tracks.valid, tracks.mode, tracks.iaddr, tracks.pc,
    tracks.branchCount, tracks.waitCount, tracks.printed⟩

end Tracks

section Quiet
variable {Value : Type} {config : Config} {ch : Byte} {place place' : Place}

theorem reads_timestamp (number : Nat) {count : Nat} (positive : 1 ≤ count) (most : count ≤ 9) :
    Reads ch timestamp (timestampBytes number count 0) place [] place
      (fun value => value = 0) := by
  intro printed state rest tracks _ supply
  obtain ⟨after, gives, left⟩ := gives_supply supply
  obtain ⟨value, decoded, _⟩ := timestampGroups_gives positive (by omega) (Nat.zero_add 9)
    (Holds.start number state.timestamp) gives
  rw [List.append_nil]
  have line : Tracks place printed (after.print (.timestamp after.inSync value
      (value - after.timestamp) (state.data &&& 4 != 0))) :=
    (tracks.gives gives).printQuietly rfl
  exact ⟨0, _, timestamp_of_groups decoded, rfl, left, line.setTimestamp value⟩

theorem reads_daddrGroups (number : Nat) {count : Nat} (positive : 1 ≤ count)
    (most : count ≤ 5) :
    Reads ch (daddrGroups 5 0) (groupBytes number count 0) place [] place (fun _ => True) := by
  intro printed state rest tracks _ supply
  obtain ⟨after, gives, left⟩ := gives_supply supply
  have groups : Gives state (groupBytes number count (7 * 0)) after := gives
  obtain ⟨daddr, decoded, _⟩ :=
    daddrGroups_gives positive most (Holds.start number state.daddr) groups
  rw [List.append_nil]
  exact ⟨(), _, decoded, trivial, left, (tracks.gives gives).setDaddr daddr⟩

theorem reads_ndata {hasAddr : Bool} {size : BitVec 2} {address : List Byte} (number : Nat)
    (reads : ∀ last, Reads last (onlyIf hasAddr (daddrGroups 5 0)) address place [] place
      (fun _ => True)) :
    Reads (ndataHeader hasAddr size) ndata
      (address ++ dataBytes number size.toNat 0) place [] place (fun value => value = 0) := by
  refine Reads.data ?_
  simp only [ndataHeader_size, ndataHeader_hasAddr]
  refine (reads _).bind ?_
  intro _ _ _
  refine (reads_wordBytes number size.toNat).bind_end ?_
  intro _ _ _
  exact reads_printAndReturn fun state => rfl

theorem Reads.thenCycleCount {packet : Decode Int} {bytes : List Byte} {lines : List Report}
    (reads : Reads ch packet bytes place lines place' (fun value => value = 0))
    (table : config.table = .pft) (cycles : CycleCount) :
    Reads ch (thenCycleCount config packet) (bytes ++ cycles.behind config) place lines place'
      (fun value => value = 0) := by
  refine reads.bind_quiet ?_
  intro ret last zero
  subst zero
  simp only [CycleCount.behind, table, true_and]
  cases config.cycleAccurate with
  | false => exact reads_pure 0
  | true =>
      exact (reads_cycleCountPft cycles.top cycles.low cycles.number cycles.most).getByte

theorem reads_handle {decoder : Decoder} {bytes : List Byte} {lines : List Report}
    (type : (config.typeOf ch).decode = some decoder)
    (reads : Reads ch (decode config decoder) bytes place lines place' (fun value => value = 0)) :
    Reads ch (handle config ch) bytes place lines place' (fun _ => True) := by
  rw [handle, type]
  intro printed state rest tracks data supply
  obtain ⟨value, after, run, _, left, tracks'⟩ := reads tracks data supply
  exact ⟨(), after, bind_of_ok run fun _ => pure (), trivial, left, tracks'⟩

/-- What the two tables make of a header. -/
def Table.choose (etm33 pft : Decoder) : Table → Decoder
  | .etm33 => etm33
  | .pft => pft

theorem typeOf_timestamp (r : Bool) : (config.typeOf (timestampHeader r)).decode =
    some (config.table.choose .timestamp .timestampPft) := by
  rw [Config.typeOf]
  cases config.table with
  | etm33 => cases r <;> rfl
  | pft => cases r <;> rfl

theorem Quiet.reads {bytes : List Byte} (quiet : Quiet config ch bytes) :
    Reads ch (handle config ch) bytes place [] place (fun _ => True) := by
  cases quiet with
  | zero =>
      have type : (config.typeOf 0x00).decode = some .async := by
        rw [Config.typeOf]
        cases config.table <;> rfl
      exact reads_handle type (reads_pure 0)
  | asyncEnd plain =>
      intro printed state rest tracks data supply
      rw [List.append_nil]
      refine ⟨(), state, ?_, trivial, supply, tracks⟩
      cases table : config.table with
      | etm33 =>
          have type : (config.typeOf 0x80).decode = some .pheader := by
            rw [Config.typeOf, table]
            rfl
          rw [handle, type]
          exact bind_of_ok ((pheader_terminator data).trans (by rw [plain]; rfl)) _
      | pft =>
          have type : (config.typeOf 0x80).decode = some .atom := by
            rw [Config.typeOf, table]
            rfl
          rw [handle, type]
          exact bind_of_ok ((atom_terminator data).trans (by rw [plain]; rfl)) _
  | ignore =>
      have type : (config.typeOf 0x66).decode = some .ignore := by
        rw [Config.typeOf]
        cases config.table <;> rfl
      exact reads_handle type (reads_pure 0)
  | contextid number =>
      have type : (config.typeOf 0x6e).decode = some .contextid := by
        rw [Config.typeOf]
        cases config.table <;> rfl
      refine reads_handle type ((reads_wordBytes number _).bind_end ?_)
      intro _ _ _
      exact reads_printAndReturn fun _ => rfl
  | vmid vmid =>
      have type : (config.typeOf 0x3c).decode = some .vmid := by
        rw [Config.typeOf]
        cases config.table <;> rfl
      refine reads_handle type (Reads.getByte ?_)
      exact reads_printAndReturn fun _ => rfl
  | timestamp r number positive most cycles =>
      cases table : config.table with
      | etm33 =>
          have type : (config.typeOf (timestampHeader r)).decode = some .timestamp := by
            rw [typeOf_timestamp, table]
            rfl
          rw [CycleCount.behind, table, List.append_nil]
          exact reads_handle type (reads_timestamp number positive most)
      | pft =>
          have type : (config.typeOf (timestampHeader r)).decode = some .timestampPft := by
            rw [typeOf_timestamp, table]
            rfl
          exact reads_handle type
            ((reads_timestamp number positive most).thenCycleCount table cycles)
  | cycleCount table number positive most =>
      have type : (config.typeOf 0x04).decode = some .ccount := by
        rw [Config.typeOf, table]
        rfl
      exact reads_handle type (reads_ccount number positive most)
  | data table short number =>
      have noAddress : ∀ last, Reads last (onlyIf false (daddrGroups 5 0)) [] place []
          place (fun _ => True) := fun _ => (reads_pure ()).weaken fun _ _ => trivial
      exact reads_handle (typeOf_ndataHeader table _ _) (reads_ndata number noAddress)
  | dataWithAddress table short number addr positive most =>
      refine reads_handle (typeOf_ndataHeader table _ _) ?_
      exact reads_ndata number fun _ => reads_daddrGroups addr positive most
  | trigger table =>
      have type : (config.typeOf 0x0c).decode = some .trigger := by
        rw [Config.typeOf, table]
        rfl
      refine reads_handle type ?_
      exact reads_printAndReturn fun _ => rfl
  | exceptionReturn table =>
      have type : (config.typeOf 0x76).decode = some .exceptRet := by
        rw [Config.typeOf, table]
        rfl
      refine reads_handle type ?_
      exact reads_printAndReturn fun _ => rfl

end Quiet

/-! ## Branch packets -/

inductive ExceptionBytes : Bool → List Byte → Prop where
  | none : ExceptionBytes false []
  | one {first : Byte} (last : first &&& 0x80 = 0) : ExceptionBytes true [first]
  | two {first : Byte} (more : first &&& 0x80 ≠ 0) (second : Byte) :
      ExceptionBytes true [first, second]

/-- Without an exception the program flow trace means that the branch was executed. -/
def impliedAtom (flow exception : Bool) : List Event :=
  if !exception && flow then [.instruction true] else []

namespace State

def tell (config : Config) (exception : Bool) (state : State) : State :=
  if !exception && config.programFlowOnly then state.printInstruction config true else state

def switchMode (count : Nat) (data : Byte) (state : State) : State :=
  if count = 5 then state.setMode (modeOf data) else state

theorem tell_mode (config : Config) (exception : Bool) (state : State) :
    (state.tell config exception).mode = state.mode := by
  unfold tell
  split
  · rfl
  · rfl

theorem tell_supply (config : Config) (exception : Bool) (state : State) :
    (state.tell config exception).supply = state.supply := by
  unfold tell
  split
  · rfl
  · rfl

theorem switchMode_supply (count : Nat) (data : Byte) (state : State) :
    (state.switchMode count data).supply = state.supply := by
  unfold switchMode
  split
  · rfl
  · rfl

end State

theorem finishBranch_eq (config : Config) (count : Nat) (addr validMask : Word) (s : State) :
    let ret := (count == 5 || config.altBranch && 1 < count) && s.data &&& 0x40 != 0
    finishBranch config count addr validMask s =
      .ok ret (((s.tell config ret).switchMode count s.data).branchTo addr validMask) := by
  intro ret
  have tells : onlyIf (!ret && config.programFlowOnly) (printInstruction config true) s =
      .ok () (s.tell config ret) := by
    unfold onlyIf State.tell
    split
    · rfl
    · rfl
  have switches : onlyIf (count == 5) (update (State.setMode (modeOf s.data)))
      (s.tell config ret) = .ok () ((s.tell config ret).switchMode count s.data) := by
    simp only [onlyIf, State.switchMode, beq_iff_eq]
    split
    · rfl
    · rfl
  rw [finishBranch, read_bind]
  change (onlyIf (!ret && config.programFlowOnly) (printInstruction config true) >>= _) s = _
  rw [bind_of_ok tells, bind_of_ok switches]
  rfl

namespace Tracks
variable {config : Config} {place : Place} {printed : List Report} {state : State}

theorem switchMode (tracks : Tracks place printed state) {count : Nat} {data : Byte}
    {mode : Mode} (leads : (if count = 5 then modeOf data else state.mode) = mode) :
    Tracks { place with mode := mode } printed (state.switchMode count data) := by
  unfold State.switchMode
  split at leads
  · next five =>
      rw [if_pos five, leads]
      exact ⟨tracks.sync, tracks.valid, rfl, tracks.iaddr, tracks.pc,
        tracks.branchCount, tracks.waitCount, tracks.printed⟩
  · next other =>
      rw [if_neg other, ← leads, tracks.mode]
      exact tracks

/-- A branch within an instruction set; the whole address stays known. -/
theorem branchTo (tracks : Tracks place printed state) (known : place.valid = 0xffffffff)
    (addr validMask : Word) :
    Tracks (place.goTo (addr <<< place.mode.shift) place.mode) printed
      (state.branchTo addr validMask) where
  sync := tracks.sync
  valid := by
    simp only [State.branchTo, tracks.valid, known]
    split
    · next less =>
        have most := (validMask <<< (state.mode.shift ||| ((1 <<< state.mode.shift) - 1))).isLt
        rw [BitVec.lt_def] at less
        exact absurd less (by simp; omega)
    · rfl
  mode := tracks.mode
  iaddr := congrArg (addr <<< ·.shift) tracks.mode
  pc := congrArg (addr <<< ·.shift) tracks.mode
  branchCount := rfl
  waitCount := tracks.waitCount
  printed := tracks.printed

theorem tell (config : Config) (tracks : Tracks place printed state) (exception : Bool) :
    Tracks (place.after config.programFlowOnly (impliedAtom config.programFlowOnly exception))
      (printed ++ place.reports config.programFlowOnly
        (impliedAtom config.programFlowOnly exception))
      (state.tell config exception) := by
  unfold impliedAtom State.tell
  split
  · rw [Place.reports_one]
    exact tracks.printInstruction config true
  · rw [Place.reports, List.append_nil]
    exact tracks

theorem getBranchAddr {mode : Mode} {iaddr : Word} {rest : List Byte}
    (packet : BranchPacket config.altBranch mode iaddr) (tracks : Tracks place printed state)
    (known : place.valid = 0xffffffff) (sameMode : place.mode = mode) (sameAnchor : place.anchor = iaddr)
    (header : state.data = packet.header) (supply : state.supply = packet.bytes ++ rest) :
    ∃ after, Etm.getBranchAddr config state = .ok packet.exception after ∧ after.supply = rest ∧
      Tracks ((place.after config.programFlowOnly
          (impliedAtom config.programFlowOnly packet.exception)).goTo
            packet.target packet.targetMode)
        (printed ++ place.reports config.programFlowOnly
          (impliedAtom config.programFlowOnly packet.exception)) after := by
  rw [← tracks.mode] at sameMode
  rw [← tracks.iaddr] at sameAnchor
  subst sameMode sameAnchor
  obtain ⟨behind, gives, left⟩ := gives_supply supply
  obtain ⟨word, mask, groups, kept, data⟩ := packet.groups header gives
  have finished := finishBranch_eq config packet.length word mask behind
  rw [packet.flag data] at finished
  have run : Etm.getBranchAddr config state =
      finishBranch config packet.length word mask behind := by
    rw [Etm.getBranchAddr, read_bind, read_bind, bind_of_ok groups]
  have told := (tracks.gives gives).tell config packet.exception
  have mode := packet.mode_eq gives data
  rw [← State.tell_mode config packet.exception behind] at mode
  have knownStill : (place.after config.programFlowOnly
      (impliedAtom config.programFlowOnly packet.exception)).valid = 0xffffffff := by
    unfold impliedAtom
    split
    · exact known
    · exact known
  have there := (told.switchMode mode).branchTo knownStill word mask
  rw [packet.shiftLeft_kept kept] at there
  refine ⟨_, run.trans finished, ?_, there⟩
  have same : ∀ s : State, (s.branchTo word mask).supply = s.supply := fun _ => rfl
  rw [same, State.switchMode_supply, State.tell_supply, left]

end Tracks

def branchEvents (flow exception : Bool) (target : Word) (mode : Mode) : List Event :=
  impliedAtom flow exception ++ [.jump target mode]

section Branch
variable {config : Config} {ch : Byte} {place : Place}

theorem reads_exceptionData {exception : Bool} {bytes : List Byte}
    (data : ExceptionBytes exception bytes) :
    Reads ch (readIf exception getExceptionData) bytes place [] place (fun _ => True) := by
  have some {bytes : List Byte}
      (reads : Reads ch getExceptionData bytes place [] place (fun _ => True)) :
      Reads ch (readIf true getExceptionData) bytes place [] place (fun _ => True) := by
    rw [readIf, if_pos rfl, map_eq_pure_bind]
    refine reads.bind_end ?_
    intro data _ _
    exact (reads_pure _).weaken fun _ _ => trivial
  cases data with
  | none => exact (reads_pure none).weaken fun _ _ => trivial
  | one last =>
      refine some (Reads.getByte ?_)
      rw [if_neg (not_not_intro last)]
      exact (reads_pure _).weaken fun _ _ => trivial
  | two more second =>
      refine some (Reads.getByte ?_)
      rw [if_pos more]
      refine Reads.getByte ?_
      exact (reads_pure _).weaken fun _ _ => trivial

theorem reads_branch (packet : BranchPacket config.altBranch place.mode place.anchor)
    (known : place.valid = 0xffffffff)
    {data : List Byte} (exceptionBytes : ExceptionBytes packet.exception data) :
    Reads packet.header (branch config) (packet.bytes ++ data) place
      (place.reports config.programFlowOnly
        (branchEvents config.programFlowOnly packet.exception packet.target packet.targetMode))
      (place.after config.programFlowOnly
        (branchEvents config.programFlowOnly packet.exception packet.target packet.targetMode))
      (fun value => value = 0) := by
  intro printed state rest tracks header supply
  rw [List.append_assoc] at supply
  obtain ⟨middle, run, left, there⟩ := tracks.getBranchAddr packet known rfl rfl header supply
  obtain ⟨exceptionData, after, run', _, left', tracks'⟩ :=
    reads_exceptionData exceptionBytes there rfl left
  have inSync : after.inSync = true := decide_eq_true tracks'.sync
  have shown : (Entry.line (.branch after.inSync after.iaddr exceptionData after.shownValid
      after.mode)).report.toList = [.branch packet.target] := by
    rw [inSync, tracks'.iaddr]
    rfl
  have lines := tracks'.print shown
  rw [List.append_nil, List.append_assoc] at lines
  rw [branchEvents, Place.reports_append, Place.reports_one, Place.after_append]
  refine ⟨0, after.print _, ?_, rfl, left', lines⟩
  rw [branch, bind_of_ok run, bind_of_ok run']
  rfl

end Branch

/-! ## Synchronisation packets -/

/-- Where an I-sync says that the trace begins or goes on. -/
structure SyncPoint where
  addr : Word
  mode : Mode
  ib : Byte
  contextid : Nat
  jazelle : ib &&& 0x10 ≠ 0 ↔ mode = .jazelle
  aligned : mode ≠ .jazelle → addr &&& 1 = 0

namespace SyncPoint

/-- Bit 0 of the address tells Thumb from ARM. -/
def sent (point : SyncPoint) : Word :=
  if point.mode = .thumb then point.addr ||| 1 else point.addr

theorem sent_mode (point : SyncPoint) :
    (if point.ib &&& 0x10 ≠ 0 then Mode.jazelle
      else if point.sent &&& 1 ≠ 0 then .thumb else .arm) = point.mode := by
  have jazelle := point.jazelle
  cases mode : point.mode with
  | jazelle => rw [if_pos (jazelle.mpr mode)]
  | thumb =>
      have other : ¬ point.ib &&& 0x10 ≠ 0 := by
        rw [jazelle, mode]
        exact Mode.noConfusion
      have even := point.aligned (by rw [mode]; exact Mode.noConfusion)
      have odd : point.sent &&& 1 ≠ 0 := by
        rw [sent, if_pos mode, BitVec.and_or_distrib_right, even]
        decide
      rw [if_neg other, if_pos odd]
  | arm =>
      have other : ¬ point.ib &&& 0x10 ≠ 0 := by
        rw [jazelle, mode]
        exact Mode.noConfusion
      have even : point.sent &&& 1 = 0 := by
        rw [sent, mode]
        exact point.aligned (by rw [mode]; exact Mode.noConfusion)
      rw [if_neg other, if_neg (not_not_intro even)]

theorem sent_addr (point : SyncPoint) :
    (if point.mode = .thumb then point.sent &&& ~~~1#32 else point.sent) = point.addr := by
  by_cases thumb : point.mode = .thumb
  · have even := point.aligned (by rw [thumb]; exact Mode.noConfusion)
    rw [if_pos thumb, sent, if_pos thumb]
    apply BitVec.eq_of_getLsbD_eq
    intro i _
    have bit := congrArg (fun word => word.getLsbD i) even
    simp only [BitVec.getLsbD_and, BitVec.getLsbD_or, BitVec.getLsbD_not] at bit ⊢
    cases addrBit : point.addr.getLsbD i <;> cases oneBit : (1#32).getLsbD i <;> simp_all
  · rw [if_neg thumb, sent, if_neg thumb]

end SyncPoint

theorem Tracks.updateAddr {place : Place} {printed : List Report} {state : State}
    (tracks : Tracks place printed state) (point : SyncPoint) :
    Tracks (place.goTo point.addr point.mode) printed (state.updateAddr point.ib point.sent) := by
  have mode := point.sent_mode
  have addr := point.sent_addr
  exact {
    sync := tracks.sync
    valid := rfl
    mode := mode
    iaddr := by
      simp only [State.updateAddr, mode]
      exact addr
    pc := by
      simp only [State.updateAddr, mode]
      exact addr
    branchCount := rfl
    waitCount := tracks.waitCount
    printed := tracks.printed }

section Sync
variable {config : Config} {ch : Byte} {place : Place}

theorem reads_updateAddr (point : SyncPoint) :
    Reads ch (update (State.updateAddr point.ib point.sent)) [] place []
      (place.goTo point.addr point.mode) (fun _ => True) := by
  intro printed state rest tracks _ supply
  rw [List.append_nil]
  exact ⟨(), _, rfl, trivial, supply, tracks.updateAddr point⟩

theorem reads_printIsync (contextid : Word) (ib : Byte) :
    Reads ch (printIsync contextid ib) [] place [.isync place.anchor] place
      (fun value => value = 0) := by
  intro printed state rest tracks _ supply
  have inSync : state.inSync = true := decide_eq_true tracks.sync
  have shown : (Entry.line (.isync state.inSync contextid ib state.iaddr)).report.toList =
      [.isync place.anchor] := by
    rw [inSync, tracks.iaddr]
    rfl
  exact ⟨0, _, rfl, rfl, supply, tracks.print shown⟩

namespace SyncPoint

def bytes (config : Config) (point : SyncPoint) : List Byte :=
  dataBytes point.contextid config.contextidBytes.toNat 0 ++
    ([point.ib] ++ dataBytes point.sent.toNat 4 0)

/-- The program flow trace sends the address first and may add a cycle count. -/
def bytesPft (config : Config) (point : SyncPoint) (cycles : CycleCount) : List Byte :=
  dataBytes point.sent.toNat 4 0 ++ ([point.ib] ++
    ((if config.cycleAccurate && point.ib &&& 0x60 != 0 then cycles.bytes else []) ++
      dataBytes point.contextid config.contextidBytes.toNat 0))

end SyncPoint

theorem reads_isync (point : SyncPoint) :
    Reads ch (isync config) (point.bytes config) place [.isync point.addr]
      (place.goTo point.addr point.mode) (fun value => value = 0) := by
  refine (reads_wordBytes point.contextid _).bind ?_
  intro contextid _ _
  refine Reads.getByte ?_
  refine (reads_getAddr point.sent).bind_end ?_
  intro addr last same
  subst same
  refine (reads_updateAddr point).bind_end ?_
  intro _ _ _
  exact reads_printIsync contextid point.ib

theorem reads_isyncPft (point : SyncPoint) (cycles : CycleCount) :
    Reads ch (isyncPft config) (point.bytesPft config cycles) place [.isync point.addr]
      (place.goTo point.addr point.mode) (fun value => value = 0) := by
  refine (reads_getAddr point.sent).bind ?_
  intro addr _ same
  subst same
  refine Reads.getByte ?_
  refine (reads_updateAddr point).bind ?_
  intro _ last _
  have counted : ∀ place : Place, Reads last
      (onlyIf (config.cycleAccurate && point.ib &&& 0x60 != 0) do
        let _ ← getByte
        let _ ← cycleCountPft config)
      (if config.cycleAccurate && point.ib &&& 0x60 != 0 then cycles.bytes else []) place [] place
      (fun _ => True) := by
    intro place
    unfold onlyIf
    split
    · refine Reads.getByte ?_
      refine (reads_cycleCountPft cycles.top cycles.low cycles.number cycles.most).bind_end ?_
      intro _ _ _
      exact (reads_pure ()).weaken fun _ _ => trivial
    · exact (reads_pure ()).weaken fun _ _ => trivial
  refine (counted _).bind ?_
  intro _ _ _
  refine (reads_wordBytes point.contextid _).bind_end ?_
  intro contextid _ _
  exact reads_printIsync contextid point.ib

end Sync

/-! ## Atoms of the program flow trace -/

/-- A stop bit above up to five atoms, the first one next to it. -/
def atomHeader (atoms : List Bool) : Byte :=
  BitVec.ofNat 8 (0x80 + 2 * atoms.foldl (fun bits execute => 2 * bits + (!execute).toNat) 1)

/-- With cycles there is one atom to a packet. -/
def atomCycleHeader (execute more : Bool) (number : Nat) : Byte :=
  countHeader true (BitVec.ofBool (!execute) ++ 0#1) more number

def atomsOf : Nat → Byte → List Bool
  | 0, _ => []
  | i + 1, d => (d <<< 1 &&& 0x80 == 0) :: atomsOf i (d <<< 1)

theorem atomsOf_header (atoms : List Bool) (most : atoms.length ≤ 5) :
    atomsOf (atomStart 5 (atomHeader atoms <<< 1)).1 (atomStart 5 (atomHeader atoms <<< 1)).2 =
      atoms := by
  match atoms, most with
  | [], _ => rfl
  | [a], _ => revert a; decide
  | [a, b], _ => revert a b; decide
  | [a, b, c], _ => revert a b c; decide
  | [a, b, c, d], _ => revert a b c d; decide
  | [a, b, c, d, e], _ => revert a b c d e; decide +kernel

section Atoms
variable {config : Config} {place : Place}

theorem performs_atomBits (config : Config) (i : Nat) (d : Byte) :
    Performs config (atomBits config i d) ((atomsOf i d).map Event.instruction) := by
  induction i generalizing d with
  | zero => exact performs_pure
  | succ i ih => exact (performs_printInstruction config _).bind (ih (d <<< 1))

theorem reads_atoms (plain : config.cycleAccurate = false) {atoms : List Bool}
    (most : atoms.length ≤ 5) :
    Reads (atomHeader atoms) (atom config) [] place
      (place.reports config.programFlowOnly (atoms.map Event.instruction))
      (place.after config.programFlowOnly (atoms.map Event.instruction))
      (fun value => value = 0) := by
  have performs := performs_atomBits config (atomStart 5 (atomHeader atoms <<< 1)).1
    (atomStart 5 (atomHeader atoms <<< 1)).2
  rw [atomsOf_header atoms most] at performs
  rw [atom, plain]
  refine Reads.data ?_
  refine performs.reads.bind_quiet ?_
  intro _ _ _
  exact reads_pure 0

theorem atomCycleHeader_executed (execute more : Bool) (number : Nat) :
    (atomCycleHeader execute more number &&& 0x02 == 0) = execute := by
  have bits : ∀ (execute more : Bool) (four : BitVec 4),
      ((BitVec.ofBool true ++ BitVec.ofBool more ++ four ++
        (BitVec.ofBool (!execute) ++ 0#1) : Byte) &&& 0x02 == 0) = execute := by decide
  exact bits execute more _

theorem reads_atomWithCycles (accurate : config.cycleAccurate = true) (execute : Bool)
    (number : Nat) {count : Nat} (most : count ≤ 4) :
    Reads (atomCycleHeader execute (count != 0) number) (atom config)
      (groupBytes number count 4) place
      (place.reports config.programFlowOnly [.instruction execute])
      (place.after config.programFlowOnly [.instruction execute]) (fun value => value = 0) := by
  have executed := atomCycleHeader_executed execute (count != 0) number
  rw [atom, accurate]
  refine Reads.data ?_
  rw [executed]
  refine (reads_cycleCountPft true _ number most).bind_end ?_
  intro _ _ _
  refine (performs_printInstruction config execute).reads.bind_quiet ?_
  intro _ _ _
  exact reads_pure 0

end Atoms

end ImxTest.Etm
