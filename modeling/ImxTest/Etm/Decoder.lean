import ImxTest.Etm.Formatter

/-!
# The trace decoder of `etm.c`

A decoder reads bytes with `get_byte` and changes `struct state`; `exit` in
`get_byte` at the end of the input ends the program, which is what the error of
`EStateM` stands for here.  Every line that is printed is an entry of a log, and
so is every byte that `get_byte` returns, with `sync` before and after it, and
every place that gives the synchronisation up.  The echo of the input under
`print_input` is left out.
-/

set_option autoImplicit false

namespace ImxTest.Etm

/-- `int mode; // 2 ARM, 1 Thumb, 0 Jazelle`. -/
inductive Mode where
  | jazelle
  | thumb
  | arm
  deriving DecidableEq, Repr

def Mode.shift : Mode → Nat
  | .jazelle => 0
  | .thumb => 1
  | .arm => 2

/-- The lines that are printed, besides those of `print_instruction`.  The first
argument of most is the `in_sync_char`. -/
inductive Line where
  | longWait
  | branch (inSync : Bool) (iaddr : Word) (exceptionData valid : Option Word) (mode : Mode)
  | timestamp (inSync : Bool) (timestamp difference : BitVec 64) (r : Bool)
  | cycleCount (inSync : Bool) (count : Word)
  | isync (inSync : Bool) (contextid : Word) (ib : Byte) (iaddr : Word)
  | contextid (inSync : Bool) (contextid : Word)
  | vmid (inSync : Bool) (vmid : Byte)
  | normalData (inSync : Bool) (data addr : Option Word)
  | unknownPheader
  | waypoint (inSync : Bool) (iaddr : Word) (ib : Option Byte) (valid : Option Word)
      (mode : Mode)
  | trigger (inSync : Bool)
  | exceptionReturn (inSync : Bool)
  | notHandled (ch : Byte) (name : String)
  | waited (count : Int)
  deriving DecidableEq, Repr

structure Instruction where
  inSync : Bool
  execute : Bool
  pc : Word
  branchPoints : Option Int
  valid : Option Word
  waited : Int
  deriving DecidableEq, Repr

inductive Entry where
  | byte (ch : Byte) (before after : Int)
  | resync
  | instruction (instruction : Instruction)
  | line (line : Line)
  deriving DecidableEq, Repr

structure State where
  data : Byte
  iaddr : Word
  iaddrValid : Word
  timestamp : BitVec 64
  waitCount : Int
  pc : Word
  branchCount : Int
  mode : Mode
  sync : Int
  /-- The `static` variable of `ndata`. -/
  daddr : Word
  useFormatter : Bool
  formatter : Formatter
  input : List Byte
  log : List Entry

/-- `struct state` after `memset`, with what the options set of the formatter. -/
def State.start (useFormatter : Bool) (sourceidMatch : Word) (input : List Byte) : State where
  data := 0
  iaddr := 0
  iaddrValid := 0
  timestamp := 0
  waitCount := 0
  pc := 0
  branchCount := 0
  mode := .jazelle
  sync := 0
  daddr := 0
  useFormatter := useFormatter
  formatter := Formatter.start sourceidMatch
  input := input
  log := []

/-- The functions that a packet type may name. -/
inductive Decoder where
  | branch | async | ccount | isync | isynccc | vmid | ndata | timestamp | ignore
  | contextid | pheader
  | isyncPft | atom | branchPft | waypoint | trigger | timestampPft | exceptRet
  deriving DecidableEq, Repr

structure PacketType where
  matchMask : Byte
  matchVal : Byte
  nonzeroMask : Byte
  decode : Option Decoder
  name : String
  deriving DecidableEq, Repr

def unknownType : PacketType := ⟨0x00, 0x00, 0x00, none, "Unknown"⟩

def packetTypesEtm33 : List PacketType := [
  ⟨0x01, 0x01, 0x00, some .branch, "Branch address"⟩,
  ⟨0xff, 0x00, 0x00, some .async, "A-sync"⟩,
  ⟨0xff, 0x04, 0x00, some .ccount, "Cycle count"⟩,
  ⟨0xff, 0x08, 0x00, some .isync, "I-sync"⟩,
  ⟨0xff, 0x0c, 0x00, none, "Trigger"⟩,
  ⟨0x93, 0x00, 0x60, none, "Out-of-order data"⟩,
  ⟨0xff, 0x50, 0x00, none, "Store failed"⟩,
  ⟨0xff, 0x70, 0x00, some .isynccc, "I-sync with cycle count"⟩,
  ⟨0xd3, 0x50, 0x0c, none, "Out-of-order placeholder"⟩,
  ⟨0xd3, 0x12, 0x00, none, "Reserved"⟩,
  ⟨0xf3, 0x10, 0x00, none, "Reserved"⟩,
  ⟨0xfb, 0x30, 0x00, none, "Reserved"⟩,
  ⟨0xff, 0x3c, 0x00, some .vmid, "VMID"⟩,
  ⟨0xff, 0x38, 0x00, none, "Reserved"⟩,
  ⟨0xd3, 0x02, 0x00, some .ndata, "Normal data"⟩,
  ⟨0xf3, 0x52, 0x00, none, "Reserved"⟩,
  ⟨0xfb, 0x42, 0x00, some .timestamp, "Timestamp"⟩,
  ⟨0xfb, 0x4a, 0x00, none, "Reserved"⟩,
  ⟨0xff, 0x62, 0x00, none, "Data suppressed"⟩,
  ⟨0xff, 0x66, 0x00, some .ignore, "Ignore"⟩,
  ⟨0xef, 0x6a, 0x00, none, "Value not traced"⟩,
  ⟨0xff, 0x6e, 0x00, some .contextid, "Context ID"⟩,
  ⟨0xff, 0x76, 0x00, none, "Exception exit"⟩,
  ⟨0xff, 0x7e, 0x00, none, "Exception entry"⟩,
  ⟨0xff, 0x72, 0x00, none, "Reserved"⟩,
  ⟨0x81, 0x80, 0x00, some .pheader, "P-header"⟩,
  unknownType]

def packetTypesPft : List PacketType := [
  ⟨0xff, 0x00, 0x00, some .async, "A-sync"⟩,
  ⟨0xff, 0x08, 0x00, some .isyncPft, "I-sync"⟩,
  ⟨0x81, 0x80, 0x00, some .atom, "Atom"⟩,
  ⟨0x01, 0x01, 0x00, some .branchPft, "Branch address"⟩,
  ⟨0xff, 0x72, 0x00, some .waypoint, "Waypoint update"⟩,
  ⟨0xff, 0x0c, 0x00, some .trigger, "Trigger"⟩,
  ⟨0xff, 0x6e, 0x00, some .contextid, "Context ID"⟩,
  ⟨0xff, 0x3c, 0x00, some .vmid, "VMID"⟩,
  ⟨0xfb, 0x42, 0x00, some .timestampPft, "Timestamp"⟩,
  ⟨0xff, 0x76, 0x00, some .exceptRet, "Exception return"⟩,
  ⟨0xff, 0x66, 0x00, some .ignore, "Ignore"⟩,
  ⟨0xff, 0x04, 0x00, none, "Reserved"⟩,
  ⟨0x93, 0x00, 0x60, none, "Reserved"⟩,
  ⟨0xff, 0x50, 0x00, none, "Reserved"⟩,
  ⟨0xff, 0x70, 0x00, none, "Reserved"⟩,
  ⟨0xd3, 0x50, 0x0c, none, "Reserved"⟩,
  ⟨0xd3, 0x12, 0x00, none, "Reserved"⟩,
  ⟨0xf3, 0x10, 0x00, none, "Reserved"⟩,
  ⟨0xfb, 0x30, 0x00, none, "Reserved"⟩,
  ⟨0xff, 0x38, 0x00, none, "Reserved"⟩,
  ⟨0xd3, 0x02, 0x00, none, "Reserved"⟩,
  ⟨0xf3, 0x52, 0x00, none, "Reserved"⟩,
  ⟨0xfb, 0x4a, 0x00, none, "Reserved"⟩,
  ⟨0xff, 0x62, 0x00, none, "Reserved"⟩,
  ⟨0xef, 0x6a, 0x00, none, "Reserved"⟩,
  ⟨0xff, 0x7e, 0x00, none, "Reserved"⟩,
  unknownType]

inductive Table where
  | etm33
  | pft
  deriving DecidableEq, Repr

def Table.packetTypes : Table → List PacketType
  | .etm33 => packetTypesEtm33
  | .pft => packetTypesPft

structure Config where
  contextidBytes : Int
  longWait : Word
  cycleAccurate : Bool
  altBranch : Bool
  programFlowOnly : Bool
  table : Table
  deriving DecidableEq, Repr

/-- What the options `--etm-3.3` alone give. -/
def defaultEtm33 : Config where
  contextidBytes := 4
  longWait := 1000000
  cycleAccurate := true
  altBranch := false
  programFlowOnly := false
  table := .etm33

def PacketType.isMatch (type : PacketType) (ch : Byte) : Bool :=
  ch &&& type.matchMask == type.matchVal &&
    (type.nonzeroMask == 0 || type.nonzeroMask &&& ch != 0)

/-- The first packet type that matches; the last one of a table matches every
byte. -/
def Config.typeOf (config : Config) (ch : Byte) : PacketType :=
  (config.table.packetTypes.find? fun type => type.isMatch ch).getD unknownType

/-! ## Reading bytes -/

def takeByte (useFormatter : Bool) (formatter : Formatter) (input : List Byte) :
    Option (Byte × Formatter × List Byte) :=
  if useFormatter then getByteFromFormatter formatter input
  else
    match input with
    | [] => none
    | ch :: rest => some (ch, formatter, rest)

namespace State

def print (state : State) (line : Line) : State :=
  { state with log := state.log ++ [.line line] }

def inSync (state : State) : Bool :=
  0 < state.sync

def advance (state : State) (formatter : Formatter) (input : List Byte) : State :=
  { state with formatter := formatter, input := input }

def countZero (sync : Int) (ch : Byte) : Int :=
  if ch = 0 ∧ sync ≤ 0 then
    if sync = -4 then 1 else sync - 1
  else sync

def receive (state : State) (ch : Byte) : State :=
  { state with
    data := ch
    sync := countZero state.sync ch
    log := state.log ++ [.byte ch state.sync (countZero state.sync ch)] }

end State

abbrev Decode : Type → Type := EStateM Unit State

def stateOf {Value : Type} : EStateM.Result Unit State Value → State
  | .ok _ state => state
  | .error _ state => state

def getByte : Decode Byte := fun state =>
  match takeByte state.useFormatter state.formatter state.input with
  | none =>
      .error () (if state.waitCount ≠ 0 then state.print (.waited state.waitCount) else state)
  | some (ch, formatter, input) =>
      .ok ch ((state.advance formatter input).receive ch)

def read {Value : Type} (field : State → Value) : Decode Value := fun state =>
  .ok (field state) state

def update (change : State → State) : Decode Unit := fun state =>
  .ok () (change state)

/-- `if (condition) { body }`. -/
def onlyIf (condition : Bool) (body : Decode Unit) : Decode Unit :=
  if condition then body else pure ()

/-- `while (n--) { body }`. -/
def repeatDown : Nat → Decode Unit → Decode Unit
  | 0, _ => pure ()
  | n + 1, body => do
      body
      repeatDown n body

def print (line : State → Line) : Decode Unit :=
  update fun state => state.print (line state)

/-- `state->sync = 0`. -/
def State.resync (state : State) : State :=
  { state with sync := 0, log := state.log ++ [.resync] }

/-! ## Instructions -/

namespace State

def nextPc (config : Config) (state : State) : State :=
  { state with
    branchCount := if config.programFlowOnly then state.branchCount + 1 else state.branchCount
    pc := if config.programFlowOnly then state.pc else state.pc + (1 <<< state.mode.shift) }

/-- `iaddr_valid` is printed where a bit of it is clear. -/
def shownValid (state : State) : Option Word :=
  if state.iaddrValid ≠ 0xffffffff then some state.iaddrValid else none

def printInstruction (config : Config) (execute : Bool) (state : State) : State :=
  let waited := state.waitCount
  let pc := state.pc
  let state := state.nextPc config
  let longWait := if config.longWait < BitVec.ofInt 32 waited then [Entry.line .longWait] else []
  { state with
    -- Only a count that is not 0 is set to 0, which comes to the same.
    waitCount := 0
    log := state.log ++ longWait ++ [.instruction {
      inSync := state.inSync
      execute := execute
      pc := pc
      branchPoints := if config.programFlowOnly then some state.branchCount else none
      valid := state.shownValid
      waited := waited }] }

def wait (count : Int) (state : State) : State :=
  { state with waitCount := state.waitCount + count }

end State

def printInstruction (config : Config) (execute : Bool) : Decode Unit :=
  update (State.printInstruction config execute)

/-! ## Branch addresses -/

/-- `while (state->data & 0x80 && count < 5)`, with the passes that `count` still
allows as the first argument. -/
def branchGroups (config : Config) : Nat → Nat → Word → Word → Decode (Nat × Word × Word)
  | 0, count, addr, validMask => pure (count, addr, validMask)
  | left + 1, count, addr, validMask => do
      let data ← read State.data
      if data &&& 0x80 ≠ 0 then
        let data ← getByte
        let mask : Byte := if config.altBranch && data &&& 0x80 == 0 then 0x3f else 0x7f
        let shifted : Word := mask.setWidth 32 <<< (7 * count - 1)
        let group : Word := (data &&& mask).setWidth 32 <<< (7 * count - 1)
        branchGroups config left (count + 1) ((addr &&& ~~~shifted) ||| group)
          (validMask ^^^ shifted)
      else pure (count, addr, validMask)

/-- The instruction set that the last byte of a five-byte packet names. -/
def modeOf (data : Byte) : Mode :=
  if data &&& 0xb0 = 0 then .arm
  else if data &&& 0xa0 = 0 then .thumb
  else .jazelle

namespace State

def setMode (mode : Mode) (state : State) : State :=
  { state with mode := mode }

/-- The end of `get_branch_addr`.  The shift of the mask binds weaker than `|`. -/
def branchTo (addr validMask : Word) (state : State) : State :=
  let addr := addr <<< state.mode.shift
  let validMask := validMask <<< (state.mode.shift ||| ((1 <<< state.mode.shift) - 1))
  { state with
    iaddrValid := if state.iaddrValid < validMask then validMask else state.iaddrValid
    iaddr := addr
    pc := addr
    branchCount := 0 }

def updateAddr (ib : Byte) (addr : Word) (state : State) : State :=
  let mode : Mode := if ib &&& 0x10 ≠ 0 then .jazelle else if addr &&& 1 ≠ 0 then .thumb else .arm
  let addr := if mode = .thumb then addr &&& ~~~1#32 else addr
  { state with
    mode := mode
    iaddr := addr
    iaddrValid := 0xffffffff
    pc := addr
    branchCount := 0 }

end State

def finishBranch (config : Config) (count : Nat) (addr validMask : Word) : Decode Bool := do
  let data ← read State.data
  let ret := (count == 5 || config.altBranch && 1 < count) && data &&& 0x40 != 0
  onlyIf (!ret && config.programFlowOnly) (printInstruction config true)
  onlyIf (count == 5) (update (State.setMode (modeOf data)))
  update (State.branchTo addr validMask)
  return ret

def getBranchAddr (config : Config) : Decode Bool := do
  let start ← read fun state => state.iaddr >>> state.mode.shift
  let data ← read State.data
  let low : Word := ((data >>> 1) &&& 0x3f).setWidth 32
  let groups ← branchGroups config 4 1 ((start &&& ~~~0x3f#32) ||| low) 0x3f
  finishBranch config groups.1 groups.2.1 groups.2.2

def getExceptionData : Decode Word := do
  let first ← getByte
  if first &&& 0x80 ≠ 0 then do
    let second ← getByte
    return (first ||| second).setWidth 32
  else return first.setWidth 32

/-- A value that is only read under a condition. -/
def readIf {Value : Type} (condition : Bool) (body : Decode Value) : Decode (Option Value) :=
  if condition then some <$> body else pure none

def branch (config : Config) : Decode Int := do
  let ret ← getBranchAddr config
  let exceptionData ← readIf ret getExceptionData
  print fun state =>
    .branch state.inSync state.iaddr exceptionData state.shownValid state.mode
  return 0

def waypoint (config : Config) : Decode Int := do
  let _ ← getByte
  let ret ← getBranchAddr config
  let ib ← readIf ret getByte
  print fun state => .waypoint state.inSync state.iaddr ib state.shownValid state.mode
  return 0

/-! ## Numbers -/

/-- The groups of seven bits of a timestamp; the ninth has eight.  The passes of
the loop that are left come first. -/
def timestampGroups : Nat → Nat → BitVec 64 → Decode (BitVec 64)
  | 0, _, timestamp => pure timestamp
  | left + 1, i, timestamp => do
      let data ← getByte
      let mask : Byte := if i = 8 then 0xff else 0x7f
      let shifted : BitVec 64 := mask.setWidth 64 <<< (7 * i)
      let group : BitVec 64 := (data &&& mask).setWidth 64 <<< (7 * i)
      let timestamp := (timestamp &&& ~~~shifted) ||| group
      if data &&& 0x80 = 0 then pure timestamp
      else timestampGroups left (i + 1) timestamp

def State.setTimestamp (timestamp : BitVec 64) (state : State) : State :=
  { state with timestamp := timestamp }

def timestamp : Decode Int := do
  let old ← read State.timestamp
  let data ← read State.data
  let new ← timestampGroups 9 0 old
  print fun state => .timestamp state.inSync new (new - state.timestamp) (data &&& 4 != 0)
  update (State.setTimestamp new)
  return 0

def countGroups : Nat → Nat → Word → Decode Word
  | 0, _, count => pure count
  | left + 1, shift, count => do
      let data ← getByte
      let count := count ||| ((data &&& 0x7f).setWidth 32 <<< shift)
      if data &&& 0x80 = 0 then pure count
      else countGroups left (shift + 7) count

def printCount (config : Config) (count : Word) : Decode Int := do
  onlyIf (config.longWait < count) (print fun _ => .longWait)
  print fun state => .cycleCount state.inSync count
  return 0

def ccount (config : Config) : Decode Int := do
  let count ← countGroups 5 0 0
  printCount config count

def cycleCountPft (config : Config) : Decode Int := do
  let h ← read State.data
  let start : Word := ((h >>> 2) &&& 0xf).setWidth 32
  let count ← countGroups (if h &&& 0x40 ≠ 0 then 4 else 0) 4 start
  printCount config count

/-- A little-endian number of `left` more bytes, from byte `i` on. -/
def wordBytes : Nat → Nat → Word → Decode Word
  | 0, _, word => pure word
  | left + 1, i, word => do
      let data ← getByte
      wordBytes left (i + 1) (word ||| (data.setWidth 32 <<< (8 * i)))

def getContextid (config : Config) : Decode Word :=
  wordBytes config.contextidBytes.toNat 0 0

def getAddr : Decode Word :=
  wordBytes 4 0 0

def State.setDaddrGroup (i : Nat) (data : Byte) (state : State) : State :=
  { state with
    daddr := (state.daddr &&& ~~~(0x7f#32 <<< (7 * i))) |||
      ((data &&& 0x7f).setWidth 32 <<< (7 * i)) }

/-- The address part of `ndata`. -/
def daddrGroups : Nat → Nat → Decode Unit
  | 0, _ => pure ()
  | left + 1, i => do
      let data ← getByte
      update (State.setDaddrGroup i data)
      if data &&& 0x80 = 0 then pure ()
      else daddrGroups left (i + 1)

def ndata : Decode Int := do
  let h ← read State.data
  let size := ((h >>> 2) &&& 3).toNat
  let hasAddr := h &&& 0x20 != 0
  onlyIf hasAddr (daddrGroups 5 0)
  let data ← wordBytes size 0 0
  print fun state =>
    .normalData state.inSync (if size ≠ 0 then some data else none)
      (if hasAddr then some state.daddr else none)
  return 0

/-! ## Synchronisation and identifiers -/

def printIsync (contextid : Word) (ib : Byte) : Decode Int := do
  print fun state => .isync state.inSync contextid ib state.iaddr
  return 0

def isync (config : Config) : Decode Int := do
  let contextid ← getContextid config
  let ib ← getByte
  let addr ← getAddr
  update (State.updateAddr ib addr)
  printIsync contextid ib

def isynccc (config : Config) : Decode Int := do
  let _ ← ccount config
  isync config

def isyncPft (config : Config) : Decode Int := do
  let addr ← getAddr
  let ib ← getByte
  update (State.updateAddr ib addr)
  onlyIf (config.cycleAccurate && ib &&& 0x60 != 0) do
    let _ ← getByte
    let _ ← cycleCountPft config
  let contextid ← getContextid config
  printIsync contextid ib

def contextid (config : Config) : Decode Int := do
  let contextid ← getContextid config
  print fun state => .contextid state.inSync contextid
  return 0

def vmid : Decode Int := do
  let vmid ← getByte
  print fun state => .vmid state.inSync vmid
  return 0

/-- A packet of the program flow trace that a cycle count follows. -/
def thenCycleCount (config : Config) (packet : Decode Int) : Decode Int := do
  let ret ← packet
  if ret = 0 ∧ config.cycleAccurate = true then do
    let _ ← getByte
    cycleCountPft config
  else pure ret

def branchPft (config : Config) : Decode Int :=
  thenCycleCount config (branch config)

def timestampPft (config : Config) : Decode Int :=
  thenCycleCount config timestamp

def trigger : Decode Int := do
  print fun state => .trigger state.inSync
  return 0

def exceptRet : Decode Int := do
  print fun state => .exceptionReturn state.inSync
  return 0

def async : Decode Int :=
  return 0

def ignore : Decode Int :=
  return 0

/-! ## Headers of executed instructions -/

def badPheader : Decode Unit := do
  update State.resync
  print fun _ => .unknownPheader

def pheaderCycles (config : Config) (data : Byte) : Decode Unit :=
  if data = 0x80 then
    update (State.wait 1)
  else if data &&& 0xa3 = 0x80 then do
    repeatDown ((data >>> 2) &&& 0x7).toNat do
      update (State.wait 1)
      printInstruction config true
    repeatDown ((data >>> 6) &&& 0x1).toNat do
      update (State.wait 1)
      printInstruction config false
  else if data &&& 0xf3 = 0x82 then do
    update (State.wait 1)
    printInstruction config (data &&& 0x08 == 0)
    printInstruction config (data &&& 0x04 == 0)
  else if data &&& 0xa3 = 0xa0 then do
    update (State.wait (((data >>> 2) &&& 0x7).toNat + 1))
    repeatDown ((data >>> 6) &&& 0x1).toNat (printInstruction config true)
  else if data &&& 0xfb = 0x92 then
    printInstruction config (data &&& 0x04 == 0)
  else badPheader

def pheaderCycleAccurate (config : Config) : Decode Int := do
  let data ← read State.data
  pheaderCycles config data
  return 0

def pheaderInstructions (config : Config) (data : Byte) : Decode Unit :=
  if data &&& 0x83 = 0x80 then do
    repeatDown ((data >>> 2) &&& 0x0f).toNat (printInstruction config true)
    onlyIf (data &&& 0x40 != 0) (printInstruction config false)
  else if data &&& 0xf3 = 0x82 then do
    printInstruction config (data &&& 0x08 == 0)
    printInstruction config (data &&& 0x04 == 0)
  else badPheader

def pheaderNonCycleAccurate (config : Config) : Decode Int := do
  let data ← read State.data
  pheaderInstructions config data
  return 0

def pheader (config : Config) : Decode Int :=
  if config.cycleAccurate then pheaderCycleAccurate config else pheaderNonCycleAccurate config

def atomCycleAccurate (config : Config) : Decode Int := do
  let h ← read State.data
  let _ ← cycleCountPft config
  printInstruction config (h &&& 0x02 == 0)
  return 0

/-- `for (i = 5; i > 0; i--, d <<= 1)` up to the stop bit. -/
def atomStart : Nat → Byte → Nat × Byte
  | 0, d => (0, d)
  | i + 1, d => if d &&& 0x80 ≠ 0 then (i + 1, d) else atomStart i (d <<< 1)

def atomBits (config : Config) : Nat → Byte → Decode Unit
  | 0, _ => pure ()
  | i + 1, d => do
      let d := d <<< 1
      printInstruction config (d &&& 0x80 == 0)
      atomBits config i d

def atomNonCycleAccurate (config : Config) : Decode Int := do
  let data ← read State.data
  let (i, d) := atomStart 5 (data <<< 1)
  atomBits config i d
  return 0

def atom (config : Config) : Decode Int :=
  if config.cycleAccurate then atomCycleAccurate config else atomNonCycleAccurate config

/-! ## The main loop -/

def decode (config : Config) : Decoder → Decode Int
  | .branch => branch config
  | .async => async
  | .ccount => ccount config
  | .isync => isync config
  | .isynccc => isynccc config
  | .vmid => vmid
  | .ndata => ndata
  | .timestamp => timestamp
  | .ignore => ignore
  | .contextid => contextid config
  | .pheader => pheader config
  | .isyncPft => isyncPft config
  | .atom => atom config
  | .branchPft => branchPft config
  | .waypoint => waypoint config
  | .trigger => trigger
  | .timestampPft => timestampPft config
  | .exceptRet => exceptRet

/-- What follows the header byte `ch` in one pass of `while (1)`. -/
def handle (config : Config) (ch : Byte) : Decode Unit :=
  match (config.typeOf ch).decode with
  | some decoder => do
      let _ ← decode config decoder
  | none => do
      update State.resync
      print fun _ => .notHandled ch (config.typeOf ch).name

def packet (config : Config) : Decode Unit := do
  let ch ← getByte
  handle config ch

def packets (config : Config) (count : Nat) : Decode Unit :=
  repeatDown count (packet config)

/-! ## Running a decoder -/

theorem read_bind {Value Next : Type} (field : State → Value) (next : Value → Decode Next)
    (state : State) : (read field >>= next) state = next (field state) state :=
  rfl

theorem bind_of_ok {Value Next : Type} {first : Decode Value} {value : Value} {s t : State}
    (returned : first s = .ok value t) (next : Value → Decode Next) :
    (first >>= next) s = next value t := by
  simp only [Bind.bind, EStateM.bind, returned]

theorem getByte_plain {state : State} {ch : Byte} {rest : List Byte}
    (plain : state.useFormatter = false) (input : state.input = ch :: rest) :
    getByte state = .ok ch ((state.advance state.formatter rest).receive ch) := by
  simp [getByte, takeByte, plain, input]

theorem packet_header {config : Config} {state : State} {ch : Byte} {rest : List Byte}
    (plain : state.useFormatter = false) (input : state.input = ch :: rest) :
    packet config state =
      handle config ch ((state.advance state.formatter rest).receive ch) :=
  bind_of_ok (getByte_plain plain input) (handle config)

end ImxTest.Etm
