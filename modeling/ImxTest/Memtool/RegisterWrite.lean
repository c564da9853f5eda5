import Mathlib.Data.List.Nodup
import ImxTest.Lib.CString
import ImxTest.Memtool.Window

/-!
# Looking up the register to write

For a write `parse_module` searches the table of the chip for the module, its registers
for the register and, if a field is named, the fields of the register for the field.  The
table ends with an entry whose name is `NULL`.  The loop over the modules tests the
pointer to the entry and not the name, so that it gets as far as comparing this one.
-/

set_option autoImplicit false

namespace ImxTest.Memtool.RegisterWrite

open ImxTest.Lib.CString

structure Field where
  name : Text
  lsb : Nat
  msb : Nat
  isWritable : Bool
  deriving DecidableEq, Repr

/-- `reg_t`; `fields` has `field_count` elements. -/
structure Reg where
  name : Text
  width : Int
  offset : Word
  isWritable : Bool
  fields : List Field
  deriving DecidableEq, Repr

/-- `module_t`; `regs` has `reg_count` elements. -/
structure Module where
  name : Text
  baseAddress : Word
  regs : List Reg
  deriving DecidableEq, Repr

structure Query where
  module : Text
  reg : Text
  field : Option Text
  value : Word
  deriving DecidableEq, Repr

inductive Kind where
  | module
  | register
  | field
  deriving DecidableEq, Repr

inductive Message where
  /-- `Can't find register %s` and the like. -/
  | cantFind (kind : Kind) (name : Text)
  /-- `%s.%s is not writable register`. -/
  | notWritableRegister (module reg : Text)
  /-- `%s.%s.%s is not writable`. -/
  | notWritable (module reg field : Text)
  deriving DecidableEq, Repr

/-- The calls of `write_reg` and `write_reg_mask`. -/
inductive Write where
  | reg (addr : Word) (width : Int) (value : Word)
  | mask (addr : Word) (width : Int) (value : Word) (lsb msb : Nat)
  deriving DecidableEq, Repr

inductive Event where
  | print (message : Message)
  | write (call : Write)
  deriving DecidableEq, Repr

/-- `strcmp` of a `NULL` pointer is a fault. -/
inductive Ending where
  | returned
  | fault
  deriving DecidableEq, Repr

/-- `inspected` counts the entries of the table whose names were compared. -/
structure Outcome where
  ending : Ending
  events : List Event
  inspected : Nat
  deriving DecidableEq, Repr

/-! ## The write branch of `parse_module` -/

/-- What a field that has the name is good for. -/
def fieldEvent (query : Query) (mx : Module) (r : Reg) (f : Field) : Event :=
  if f.isWritable then
    .write (.mask (mx.baseAddress + r.offset) r.width query.value f.lsb f.msb)
  else .print (.notWritable mx.name r.name f.name)

/-- The loop goes on after a field was found. -/
def fieldLoop (query : Query) (mx : Module) (r : Reg) (field : Text) : List Field → List Event
  | [] => []
  | f :: rest =>
      if f.name = field then fieldEvent query mx r f :: fieldLoop query mx r field rest
      else fieldLoop query mx r field rest

def regEvent (query : Query) (mx : Module) (r : Reg) : Event :=
  if r.isWritable then .write (.reg (mx.baseAddress + r.offset) r.width query.value)
  else .print (.notWritableRegister mx.name r.name)

def Query.fieldName (query : Query) : Option Text :=
  query.field.filter fun name => name ≠ []

def foundReg (query : Query) (mx : Module) (r : Reg) : List Event :=
  match query.fieldName with
  | none => [regEvent query mx r]
  | some field => fieldLoop query mx r field r.fields

def regLoop (query : Query) (mx : Module) : List Reg → List Event
  | [] => [.print (.cantFind .register query.reg)]
  | r :: rest => if r.name = query.reg then foundReg query mx r else regLoop query mx rest

/-- Behind the modules the entry with the name `NULL` follows, and the message that the
module is not found is never reached. -/
def moduleLoop (query : Query) : List Module → Outcome
  | [] => ⟨.fault, [], 1⟩
  | mx :: rest =>
      if mx.name = query.module then ⟨.returned, regLoop query mx mx.regs, 1⟩
      else { moduleLoop query rest with inspected := (moduleLoop query rest).inspected + 1 }

/-- The branch of `parse_module` for a write, once the table of the chip is chosen. -/
def parseModule (table : List Module) (query : Query) : Outcome :=
  moduleLoop query table

def Event.asWrite : Event → Option Write
  | .write call => some call
  | .print _ => none

def Outcome.writes (outcome : Outcome) : List Write :=
  outcome.events.filterMap Event.asWrite

/-! ## What the lookup should do -/

section Lookup
variable (table : List Module) (query : Query)

def HasModule : Prop :=
  ∃ mx ∈ table, mx.name = query.module

def HasRegister : Prop :=
  ∃ mx ∈ table, mx.name = query.module ∧ ∃ r ∈ mx.regs, r.name = query.reg

def HasField (field : Text) : Prop :=
  ∃ mx ∈ table, mx.name = query.module ∧ ∃ r ∈ mx.regs, r.name = query.reg ∧
    ∃ f ∈ r.fields, f.name = field

/-- A write to a writable entry that has the names. -/
inductive Target : Write → Prop
  | register {mx : Module} {r : Reg} (unnamed : query.fieldName = none) (module : mx ∈ table)
      (module_name : mx.name = query.module) (reg : r ∈ mx.regs) (reg_name : r.name = query.reg)
      (writable : r.isWritable = true) :
      Target (.reg (mx.baseAddress + r.offset) r.width query.value)
  | field {mx : Module} {r : Reg} {f : Field} (named : query.fieldName = some f.name)
      (module : mx ∈ table) (module_name : mx.name = query.module) (reg : r ∈ mx.regs)
      (reg_name : r.name = query.reg) (field : f ∈ r.fields) (writable : f.isWritable = true) :
      Target (.mask (mx.baseAddress + r.offset) r.width query.value f.lsb f.msb)

structure UniqueNames : Prop where
  modules : (table.map Module.name).Nodup
  regs : ∀ mx ∈ table, (mx.regs.map Reg.name).Nodup
  fields : ∀ mx ∈ table, ∀ r ∈ mx.regs, (r.fields.map Field.name).Nodup

/-- Without a target there is no write, by `sound`. -/
structure Exact (outcome : Outcome) : Prop where
  returns : outcome.ending = .returned
  bounded : outcome.inspected ≤ table.length + 1
  sound : ∀ write ∈ outcome.writes, Target table query write
  once : UniqueNames table → ∀ write, Target table query write → outcome.writes = [write]
  no_module : ¬ HasModule table query →
    .print (.cantFind .module query.module) ∈ outcome.events
  no_register : HasModule table query → ¬ HasRegister table query →
    .print (.cantFind .register query.reg) ∈ outcome.events
  no_field : ∀ field, query.fieldName = some field → HasRegister table query →
    ¬ HasField table query field → .print (.cantFind .field field) ∈ outcome.events

/-- The module is in the table, and so is a field that is named for a register there. -/
def Known : Prop :=
  HasModule table query ∧
    ∀ field, query.fieldName = some field → HasRegister table query → HasField table query field

end Lookup

/-! ## The three searches -/

section Searches
variable {table : List Module} {query : Query} {mx : Module} {r : Reg}

theorem hasModule_cons (first : Module) (rest : List Module) :
    HasModule (first :: rest) query ↔ first.name = query.module ∨ HasModule rest query :=
  List.exists_mem_cons_iff _ first rest

theorem moduleLoop_found (known : HasModule table query) :
    ∃ mx ∈ table, mx.name = query.module ∧ ∃ n ≤ table.length,
      moduleLoop query table = ⟨.returned, regLoop query mx mx.regs, n⟩ := by
  induction table with
  | nil =>
      obtain ⟨mx, member, -⟩ := known
      cases member
  | cons first rest ih =>
      by_cases here : first.name = query.module
      · refine ⟨first, List.mem_cons_self, here, 1, by simp, ?_⟩
        rw [moduleLoop, if_pos here]
      · have later := ((hasModule_cons first rest).mp known).resolve_left here
        obtain ⟨mx, member, name, n, small, run⟩ := ih later
        refine ⟨mx, List.mem_cons_of_mem _ member, name, n + 1, Nat.succ_le_succ small, ?_⟩
        rw [moduleLoop, if_neg here, run]

theorem moduleLoop_missing (unknown : ¬ HasModule table query) :
    (moduleLoop query table).ending = .fault := by
  induction table with
  | nil => rfl
  | cons first rest ih =>
      rw [hasModule_cons, not_or] at unknown
      obtain ⟨here, later⟩ := unknown
      rw [moduleLoop, if_neg here]
      exact ih later

theorem regLoop_found {regs : List Reg} (known : ∃ r ∈ regs, r.name = query.reg) :
    ∃ r ∈ regs, r.name = query.reg ∧ regLoop query mx regs = foundReg query mx r := by
  induction regs with
  | nil =>
      obtain ⟨r, member, -⟩ := known
      cases member
  | cons first rest ih =>
      by_cases here : first.name = query.reg
      · exact ⟨first, List.mem_cons_self, here, by rw [regLoop, if_pos here]⟩
      · rw [List.exists_mem_cons_iff] at known
        obtain ⟨r, member, name, run⟩ := ih (known.resolve_left here)
        exact ⟨r, List.mem_cons_of_mem _ member, name, by rw [regLoop, if_neg here, run]⟩

theorem regLoop_missing {regs : List Reg} (unknown : ¬ ∃ r ∈ regs, r.name = query.reg) :
    regLoop query mx regs = [.print (.cantFind .register query.reg)] := by
  induction regs with
  | nil => rfl
  | cons first rest ih =>
      rw [List.exists_mem_cons_iff, not_or] at unknown
      obtain ⟨here, later⟩ := unknown
      rw [regLoop, if_neg here]
      exact ih later

theorem fieldLoop_eq (field : Text) (fields : List Field) :
    fieldLoop query mx r field fields =
      (fields.filter fun f => f.name = field).map (fieldEvent query mx r) := by
  induction fields with
  | nil => rfl
  | cons f rest ih =>
      rw [fieldLoop, ih]
      by_cases here : f.name = field
      · rw [if_pos here, List.filter_cons_of_pos (by simpa using here)]
        rfl
      · rw [if_neg here, List.filter_cons_of_neg (by simpa using here)]

theorem filter_name {Entry : Type} {name : Entry → Text} {entries : List Entry}
    (unique : (entries.map name).Nodup) {entry : Entry} (member : entry ∈ entries) :
    (entries.filter fun other => name other = name entry) = [entry] := by
  induction entries with
  | nil => cases member
  | cons first rest ih =>
      obtain ⟨fresh, unique⟩ := List.nodup_cons.mp unique
      obtain rfl | later := List.mem_cons.mp member
      · have absent : (rest.filter fun other => name other = name entry) = [] := by
          apply List.filter_eq_nil_iff.mpr
          intro other inside same
          apply fresh
          rw [← of_decide_eq_true same]
          exact List.mem_map_of_mem inside
        rw [List.filter_cons_of_pos (by simp), absent]
      · have other : name first ≠ name entry := by
          intro same
          apply fresh
          rw [same]
          exact List.mem_map_of_mem later
        rw [List.filter_cons_of_neg (by simpa using other)]
        exact ih unique later

end Searches

/-! ## Exactness -/

section Exactness
variable {table : List Module} {query : Query} {mx : Module} {r : Reg}

theorem fieldEvent_asWrite (f : Field) {write : Write}
    (wrote : (fieldEvent query mx r f).asWrite = some write) :
    f.isWritable = true ∧
      write = .mask (mx.baseAddress + r.offset) r.width query.value f.lsb f.msb := by
  rw [fieldEvent] at wrote
  split at wrote
  · exact ⟨by assumption, (Option.some.inj wrote).symm⟩
  · cases wrote

theorem regEvent_asWrite {write : Write} (wrote : (regEvent query mx r).asWrite = some write) :
    r.isWritable = true ∧
      write = .reg (mx.baseAddress + r.offset) r.width query.value := by
  rw [regEvent] at wrote
  split at wrote
  · exact ⟨by assumption, (Option.some.inj wrote).symm⟩
  · cases wrote

theorem foundReg_sound (module : mx ∈ table) (module_name : mx.name = query.module)
    (reg : r ∈ mx.regs) (reg_name : r.name = query.reg) :
    ∀ write ∈ (foundReg query mx r).filterMap Event.asWrite, Target table query write := by
  intro write member
  obtain ⟨event, inside, wrote⟩ := List.mem_filterMap.mp member
  rw [foundReg] at inside
  cases named : query.fieldName with
  | none =>
      rw [named] at inside
      rw [List.mem_singleton.mp inside] at wrote
      obtain ⟨writable, rfl⟩ := regEvent_asWrite wrote
      exact .register named module module_name reg reg_name writable
  | some field =>
      rw [named] at inside
      dsimp only at inside
      rw [fieldLoop_eq] at inside
      obtain ⟨f, found, rfl⟩ := List.mem_map.mp inside
      obtain ⟨inside, name⟩ := List.mem_filter.mp found
      obtain ⟨writable, rfl⟩ := fieldEvent_asWrite f wrote
      have named : query.fieldName = some f.name := by
        rw [named, of_decide_eq_true name]
      exact .field named module module_name reg reg_name inside writable

/-- No message tells that a field is missing. -/
theorem foundReg_silent (field : Text) :
    .print (.cantFind .field field) ∉ foundReg query mx r := by
  rw [foundReg]
  cases query.fieldName with
  | none =>
      intro member
      have event := List.mem_singleton.mp member
      rw [regEvent] at event
      split at event <;> cases event
  | some name =>
      dsimp only
      rw [fieldLoop_eq]
      intro member
      obtain ⟨f, -, event⟩ := List.mem_map.mp member
      rw [fieldEvent] at event
      split at event <;> cases event

theorem regLoop_silent (field : Text) (regs : List Reg) :
    .print (.cantFind .field field) ∉ regLoop query mx regs := by
  by_cases known : ∃ r ∈ regs, r.name = query.reg
  · obtain ⟨r, -, -, run⟩ := @regLoop_found query mx regs known
    rw [run]
    exact foundReg_silent field
  · rw [regLoop_missing known]
    intro member
    cases List.mem_singleton.mp member

/-- Where names are unique the entries that are found are the target's. -/
theorem foundReg_once (unique : (r.fields.map Field.name).Nodup) {write : Write}
    (target : Target table query write)
    (same : ∀ mx' ∈ table, mx'.name = query.module → ∀ r' ∈ mx'.regs, r'.name = query.reg →
      mx' = mx ∧ r' = r) :
    (foundReg query mx r).filterMap Event.asWrite = [write] := by
  cases target with
  | register unnamed module module_name reg reg_name writable =>
      obtain ⟨rfl, rfl⟩ := same _ module module_name _ reg reg_name
      rw [foundReg, unnamed]
      simp [regEvent, writable, Event.asWrite]
  | field named module module_name reg reg_name field writable =>
      obtain ⟨rfl, rfl⟩ := same _ module module_name _ reg reg_name
      rw [foundReg, named]
      dsimp only
      rw [fieldLoop_eq, filter_name unique field]
      simp [fieldEvent, writable, Event.asWrite]

theorem Target.hasRegister {write : Write} (target : Target table query write) :
    HasRegister table query := by
  cases target with
  | register unnamed module module_name reg reg_name writable =>
      exact ⟨_, module, module_name, _, reg, reg_name⟩
  | field named module module_name reg reg_name field writable =>
      exact ⟨_, module, module_name, _, reg, reg_name⟩

theorem regLoop_sound (module : mx ∈ table) (module_name : mx.name = query.module) :
    ∀ write ∈ (regLoop query mx mx.regs).filterMap Event.asWrite, Target table query write := by
  intro write member
  by_cases found : ∃ r ∈ mx.regs, r.name = query.reg
  · obtain ⟨r, reg, reg_name, regs⟩ := @regLoop_found query mx mx.regs found
    rw [regs] at member
    exact foundReg_sound module module_name reg reg_name write member
  · rw [regLoop_missing found] at member
    cases member

theorem regLoop_once (unique : UniqueNames table) (module : mx ∈ table)
    (module_name : mx.name = query.module) {write : Write} (target : Target table query write) :
    (regLoop query mx mx.regs).filterMap Event.asWrite = [write] := by
  have only : ∀ mx' ∈ table, mx'.name = query.module → mx' = mx := by
    intro mx' member name
    exact List.inj_on_of_nodup_map unique.modules member module (name.trans module_name.symm)
  have found : ∃ r ∈ mx.regs, r.name = query.reg := by
    obtain ⟨mx', member, name, r, reg, reg_name⟩ := target.hasRegister
    rw [only mx' member name] at reg
    exact ⟨r, reg, reg_name⟩
  obtain ⟨r, reg, reg_name, regs⟩ := @regLoop_found query mx mx.regs found
  rw [regs]
  apply foundReg_once (unique.fields mx module r reg) target
  intro mx' member name r' reg' reg_name'
  obtain rfl := only mx' member name
  exact ⟨rfl, List.inj_on_of_nodup_map (unique.regs mx' member) reg' reg
    (reg_name'.trans reg_name.symm)⟩

end Exactness

theorem parseModule_exact_iff (table : List Module) (query : Query) :
    Exact table query (parseModule table query) ↔ Known table query := by
  constructor
  · intro meets
    have known : HasModule table query := by
      by_contra unknown
      have ending := meets.returns
      rw [parseModule, moduleLoop_missing unknown] at ending
      cases ending
    refine ⟨known, ?_⟩
    intro field named register
    by_contra missing
    have reported := meets.no_field field named register missing
    obtain ⟨mx, -, -, n, -, run⟩ := moduleLoop_found known
    rw [parseModule, run] at reported
    exact regLoop_silent field mx.regs reported
  · rintro ⟨known, fields⟩
    obtain ⟨mx, module, module_name, n, small, run⟩ := moduleLoop_found known
    rw [parseModule, run]
    constructor
    · rfl
    · exact Nat.le_succ_of_le small
    · exact regLoop_sound module module_name
    · intro unique write target
      exact regLoop_once unique module module_name target
    · intro unknown
      exact absurd known unknown
    · intro _ missing
      have unknown : ¬ ∃ r ∈ mx.regs, r.name = query.reg := by
        rintro ⟨r, reg, reg_name⟩
        exact missing ⟨mx, module, module_name, r, reg, reg_name⟩
      rw [regLoop_missing unknown]
      exact List.mem_singleton.mpr rfl
    · intro field named register missing
      exact absurd (fields field named register) missing

def oneModule : List Module :=
  [⟨['U', 'A', 'R', 'T'], 0x02020000,
    [⟨['U', 'C', 'R'], 4, 0x80, true, [⟨['E', 'N'], 0, 0, true⟩]⟩]⟩]

/-- For a module that is not in the table the name `NULL` is compared, and a field that
is not in the register is not reported. -/
theorem parseModule_unknown_names :
    ¬ Exact oneModule ⟨['S', 'P', 'I'], ['U', 'C', 'R'], none, 1⟩
        (parseModule oneModule ⟨['S', 'P', 'I'], ['U', 'C', 'R'], none, 1⟩) ∧
      ¬ Exact oneModule ⟨['U', 'A', 'R', 'T'], ['U', 'C', 'R'], some ['T', 'X'], 1⟩
        (parseModule oneModule ⟨['U', 'A', 'R', 'T'], ['U', 'C', 'R'], some ['T', 'X'], 1⟩) := by
  constructor
  · intro meets
    exact absurd meets.returns (by decide)
  · intro meets
    have register : HasRegister oneModule
        ⟨['U', 'A', 'R', 'T'], ['U', 'C', 'R'], some ['T', 'X'], 1⟩ := by
      rw [HasRegister]
      decide
    have missing : ¬ HasField oneModule
        ⟨['U', 'A', 'R', 'T'], ['U', 'C', 'R'], some ['T', 'X'], 1⟩ ['T', 'X'] := by
      rw [HasField]
      decide
    exact absurd (meets.no_field ['T', 'X'] rfl register missing) (by decide)

end ImxTest.Memtool.RegisterWrite
