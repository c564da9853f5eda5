import Mathlib.Data.List.TakeWhile
import ImxTest.Memtool.CommandLine
import ImxTest.Memtool.FieldWrite
import ImxTest.Memtool.RegisterWrite

/-!
# Registers by their names

For an argument with a dot, or with completion, `main` leaves the work to `parse_module`:
it lists modules, shows registers with their fields, writes one, or prints the names that
a word can be completed to.  `Shows` says what a part of it prints from a memory; every read
goes through the window, and what is shown is what flat memory holds.

The table is that of the chip; `main` finds it by the name of the chip, which it prints
unless it completes.
-/

set_option autoImplicit false

namespace ImxTest.Memtool.Query

open ImxTest.Lib.BitField
open ImxTest.Lib.CString
open ImxTest.Lib.Traced
open ImxTest.Memtool.CommandLine
open ImxTest.Memtool.RegisterWrite (Field Reg Module Message Write)

/-- What is printed, without the descriptions that the table has for people. -/
inductive Shown where
  | usage
  /-- `   Module\t\tBase Address`. -/
  | moduleHeader
  | moduleBase (name : Text) (baseAddress : Word)
  /-- `%s\t Addr:0x%x`. -/
  | moduleAddr (name : Text) (baseAddress : Word)
  /-- `  %s.%s Addr:0x%08X Value:0x%08X`. -/
  | reg (module reg : Text) (addr value : Word)
  /-- `     %s.%s.%s(%d..%d) \t:0x%x`. -/
  | field (module reg field : Text) (lsb msb : Nat) (value : Word)
  /-- A name that the word can be completed to. -/
  | name (text : Text)
  /-- `write 0x%08X to ..`. -/
  | writing (call : Write)
  | message (message : Message)
  deriving DecidableEq, Repr

abbrev Session (α : Type) : Type := Program Tool Shown Stop α

def print (line : Shown) : Session Unit :=
  note fun _ => line

/-- A call of `readm` or `writem`. -/
def attempt {α : Type} (call : Tool → Except Stop (α × Tool)) : Session α := fun tool =>
  match call tool with
  | .ok (value, next) => ⟨[], next, .ok value⟩
  | .error stop => ⟨[], tool, .error stop⟩

def moduleName (mx : Module) : Text := mx.name ++ ['.']

def regName (mx : Module) (r : Reg) : Text := mx.name ++ '.' :: (r.name ++ ['.'])

def fieldName (mx : Module) (r : Reg) (f : Field) : Text :=
  mx.name ++ '.' :: (r.name ++ '.' :: f.name)

section Program
variable (kernel : Kernel)

def parseField (comp : Bool) (mx : Module) (reg : Reg) (field : Option Text) (value : Word) :
    Session Unit :=
  let field := field.map (cut '*')
  reg.fields.forM fun f =>
    if field = none ∨ field = some [] ∨ (field.getD []).isPrefixOf f.name then
      if comp then print (.name (fieldName mx reg f))
      else print (.field mx.name reg.name f.name f.lsb f.msb (getValue value f.lsb f.msb))
    else pure ()

/-- A register is read once for its own line and once for its fields. -/
def showReg (mx : Module) (sreg : Reg) (dash : Bool) (field : Option Text) : Session Unit := do
  let value ← attempt (readm kernel (mx.baseAddress + sreg.offset) sreg.width)
  print (.reg mx.name sreg.name (mx.baseAddress + sreg.offset) value)
  if dash then pure ()
  else do
    let value ← attempt (readm kernel (mx.baseAddress + sreg.offset) sreg.width)
    parseField false mx sreg field value

/-- `reg` is not `NULL`: its callers have seen a dot. -/
def parseReg (comp : Bool) (mx : Module) (reg : Text) (field : Option Text) : Session Unit :=
  let reg := cut '*' reg
  mx.regs.forM fun sreg =>
    if comp then
      match field with
      | some _ => if sreg.name = reg then parseField true mx sreg field 0 else pure ()
      | none => if reg.isPrefixOf sreg.name then print (.name (regName mx sreg)) else pure ()
    else if reg = [] ∨ reg.isPrefixOf sreg.name ∨ reg.head? = some '-' then
      showReg kernel mx sreg (reg.head? = some '-') field
    else pure ()

def performWrite (call : Write) : Session Unit := do
  print (.writing call)
  match call with
  | .reg addr width value =>
      attempt fun tool => (writem kernel addr width value tool).map fun next => ((), next)
  | .mask addr width value lsb msb =>
      attempt fun tool => (writeRegMask kernel addr width value lsb msb tool).map fun next =>
        ((), next)

def performEvent : RegisterWrite.Event → Session Unit
  | .print message => print (.message message)
  | .write call => performWrite kernel call

/-- The names of a list: all of them, or those that begin with what stands before the `*`. -/
def listed : Option Text → Option Text
  | none => some []
  | some [] => some []
  | some module => if '*' ∈ module then some (cut '*' module) else none

/-- `parse_module` for the table of the chip.  A list ends at the entry with the name `NULL`,
and so does the search that follows it. -/
def parseModule (table : List Module) (globals : Globals) : Session Unit :=
  if globals.gIsWrite ≠ 0 ∧ globals.gComp = 0 then
    match globals.gModule, globals.gReg with
    | some module, some reg => do
        let outcome := RegisterWrite.parseModule table ⟨module, reg, globals.gField, globals.gValue⟩
        outcome.events.forM (performEvent kernel)
        if outcome.ending = .fault then quit .fault else pure ()
    | _, _ => quit .fault
  else if globals.gComp ≠ 0 ∧ globals.gModuleMatch = 0 then
    table.forM fun mx =>
      if (globals.gModule.getD []).isPrefixOf mx.name then print (.name (moduleName mx))
      else pure ()
  else
    match listed globals.gModule with
    | some word => do
        print .moduleHeader
        table.forM fun mx =>
          if word.isPrefixOf mx.name then print (.moduleBase mx.name mx.baseAddress) else pure ()
    | none =>
        match table.find? fun mx => mx.name = globals.gModule.getD [] with
        | none => pure ()
        | some mx => do
            if globals.gComp = 0 then print (.moduleAddr mx.name mx.baseAddress) else pure ()
            match globals.gReg with
            | some reg => parseReg kernel (globals.gComp ≠ 0) mx reg globals.gField
            | none => quit .fault

/-- `main` for an argument that names registers, or for completion; `none` stands for the
accesses to an address. -/
def main (table : List Module) (argv : List Text) : Session (Option Int) :=
  match (parseCmdline argv .start).value with
  | .error .null => quit .fault
  | .ok code =>
      let globals := (parseCmdline argv .start).state
      if code ≠ 0 then do
        print .usage
        pure (some 1)
      else if globals.gIsReg ≠ 0 ∨ globals.gComp ≠ 0 then do
        parseModule kernel table globals
        pure (some 0)
      else pure none

end Program

/-! ## What the memory shows -/

/-- Between two accesses the program can go on with this memory. -/
def Holds (memory : Memory) (tool : Tool) : Prop :=
  tool.Usable ∧ tool.physical = memory

/-- The register can be read: a width that exists, inside a page other than the first. -/
def Readable (mx : Module) (r : Reg) : Prop :=
  (Call.readm (mx.baseAddress + r.offset) r.width).Fits ∧ pageOf (mx.baseAddress + r.offset) ≠ 0

def regValue (memory : Memory) (mx : Module) (r : Reg) : Word :=
  memory.read (mx.baseAddress + r.offset) r.width.toNat

def fieldValue (memory : Memory) (mx : Module) (r : Reg) (f : Field) : Word :=
  takeField (regValue memory mx r) f.lsb f.msb

/-- A name is meant by what stands before the `*` of a pattern. -/
def Meant (pattern name : Text) : Prop := cut '*' pattern <+: name

instance (pattern name : Text) : Decidable (Meant pattern name) :=
  inferInstanceAs (Decidable (_ <+: _))

/-- `-` asks for all registers, without their fields. -/
def Dash (reg : Text) : Prop := (cut '*' reg).head? = some '-'

instance (reg : Text) : Decidable (Dash reg) := inferInstanceAs (Decidable (_ = _))

def fieldLines (memory : Memory) (mx : Module) (r : Reg) (field : Text) : List Shown :=
  (r.fields.filter fun f => Meant field f.name).map fun f =>
    .field mx.name r.name f.name f.lsb f.msb (fieldValue memory mx r f)

def regLines (memory : Memory) (mx : Module) (reg field : Text) (r : Reg) : List Shown :=
  .reg mx.name r.name (mx.baseAddress + r.offset) (regValue memory mx r) ::
    if Dash reg then [] else fieldLines memory mx r field

def listing (memory : Memory) (mx : Module) (reg field : Text) : List Shown :=
  .moduleAddr mx.name mx.baseAddress ::
    (mx.regs.filter fun r => Meant reg r.name ∨ Dash reg).flatMap (regLines memory mx reg field)

theorem readm_holds {kernel : Kernel} (succeeds : kernel.Succeeds) {memory : Memory}
    {tool : Tool} (holds : Holds memory tool) {mx : Module} {r : Reg} (readable : Readable mx r) :
    ∃ next, readm kernel (mx.baseAddress + r.offset) r.width tool =
      .ok (regValue memory mx r, next) ∧ Holds memory next := by
  obtain ⟨usable, same⟩ := holds
  obtain ⟨next, performed, remembers, -, physical⟩ :
      ∃ next, (Call.readm (mx.baseAddress + r.offset) r.width).perform kernel tool =
          .ok (((Call.readm (mx.baseAddress + r.offset) r.width).onFlat tool.physical).1, next) ∧
        next.Remembers ∧ next.gMapPaddr = pageOf (mx.baseAddress + r.offset) ∧
        next.physical = tool.physical := by
    rcases usable with fresh | remembers
    · exact perform_fresh succeeds fresh readable.1 readable.2
    · exact perform_remembers succeeds remembers readable.1
  refine ⟨next, ?_, .inr remembers, physical.trans same⟩
  rw [Call.perform] at performed
  cases returned : readm kernel (mx.baseAddress + r.offset) r.width tool with
  | error stop =>
      rw [returned] at performed
      cases performed
  | ok result =>
      obtain ⟨value, last⟩ := result
      rw [returned] at performed
      cases Except.ok.inj performed
      rw [← same]
      rfl

theorem yields_readm {kernel : Kernel} (succeeds : kernel.Succeeds) (memory : Memory)
    {mx : Module} {r : Reg} (readable : Readable mx r) :
    Yields (Holds memory) (attempt (readm kernel (mx.baseAddress + r.offset) r.width))
      (regValue memory mx r) [] := by
  intro tool holds
  obtain ⟨next, returned, kept⟩ := readm_holds succeeds holds readable
  exact ⟨next, by rw [attempt, returned], kept⟩

/-- A field pattern that is not given, or that nothing stands in, means every field. -/
theorem meant_field (field : Option Text) (name : Text) :
    (field.map (cut '*') = none ∨ field.map (cut '*') = some [] ∨
      ((field.map (cut '*')).getD []).isPrefixOf name = true) ↔ Meant (field.getD []) name := by
  rw [Meant, List.isPrefixOf_iff_prefix]
  cases field with
  | none => simp [cut]
  | some pattern =>
      simp only [Option.map_some, reduceCtorEq, Option.some.injEq, Option.getD_some, false_or]
      constructor
      · rintro (empty | begins)
        · rw [empty]
          exact List.nil_prefix
        · exact begins
      · exact .inr

section Yields
variable {kernel : Kernel} {mx : Module} {r : Reg}

theorem yields_parseField (inv : Tool → Prop) (comp : Bool) (field : Option Text)
    (value : Word) :
    Yields inv (parseField comp mx r field value) ()
      ((r.fields.filter fun f => Meant (field.getD []) f.name).map fun f =>
        if comp then .name (fieldName mx r f)
        else .field mx.name r.name f.name f.lsb f.msb (getValue value f.lsb f.msb)) := by
  have chosen := @Yields.choose Tool Shown Stop inv Field r.fields
    (fun f => Meant (field.getD []) f.name) _ fun f =>
      if comp then .name (fieldName mx r f)
      else .field mx.name r.name f.name f.lsb f.msb (getValue value f.lsb f.msb)
  have body : parseField comp mx r field value = r.fields.forM fun f =>
      if Meant (field.getD []) f.name then
        print (if comp then .name (fieldName mx r f)
          else .field mx.name r.name f.name f.lsb f.msb (getValue value f.lsb f.msb))
      else pure () := by
    rw [parseField]
    congr 1
    funext f
    simp only [meant_field]
    cases comp <;> rfl
  rw [body]
  exact chosen

theorem yields_showReg (succeeds : kernel.Succeeds) (memory : Memory) (readable : Readable mx r)
    (reg : Text) (field : Option Text) :
    Yields (Holds memory) (showReg kernel mx r (Dash reg) field) ()
      (regLines memory mx reg (field.getD []) r) := by
  have read := yields_readm succeeds memory readable
  by_cases dash : Dash reg
  · simp only [showReg, regLines, dash, decide_true, if_true]
    exact Yields.bind read (Yields.bind (Yields.note _) (Yields.pure ()))
  · simp only [showReg, regLines, dash, decide_false, Bool.false_eq_true, if_false]
    have fields := @yields_parseField mx r (Holds memory) false field (regValue memory mx r)
    exact Yields.bind read (Yields.bind (Yields.note _) (Yields.bind read fields))

theorem yields_parseReg (succeeds : kernel.Succeeds) (memory : Memory) (reg : Text)
    (field : Option Text) (readable : ∀ r ∈ mx.regs, Meant reg r.name ∨ Dash reg → Readable mx r) :
    Yields (Holds memory) (parseReg kernel false mx reg field) ()
      ((mx.regs.filter fun r => Meant reg r.name ∨ Dash reg).flatMap
        (regLines memory mx reg (field.getD []))) := by
  have chosen (r : Reg) : (cut '*' reg = [] ∨ (cut '*' reg).isPrefixOf r.name = true ∨
      (cut '*' reg).head? = some '-') ↔ Meant reg r.name ∨ Dash reg := by
    rw [List.isPrefixOf_iff_prefix, ← or_assoc]
    apply or_congr_left
    constructor
    · rintro (empty | begins)
      · rw [Meant, empty]
        exact List.nil_prefix
      · exact begins
    · exact .inr
  have lines : (mx.regs.filter fun r => Meant reg r.name ∨ Dash reg).flatMap
        (regLines memory mx reg (field.getD [])) =
      mx.regs.flatMap fun r =>
        if Meant reg r.name ∨ Dash reg then regLines memory mx reg (field.getD []) r else [] := by
    induction mx.regs with
    | nil => rfl
    | cons r rest ih =>
        rw [List.flatMap_cons, ← ih, List.filter_cons]
        by_cases here : Meant reg r.name ∨ Dash reg
        · simp [here]
        · simp [here]
  rw [lines, parseReg]
  apply Yields.forM
  intro r member
  simp only [Bool.false_eq_true, if_false, chosen]
  apply Yields.ite
  intro here
  exact yields_showReg succeeds memory (readable r member here) reg field

end Yields

/-! ## The command line -/

structure Dotted (arg module rest : Text) : Prop where
  whole : arg = module ++ '.' :: rest
  plain : '.' ∉ module
  command : ¬ memtoolText <:+: arg

theorem cut_eq_self {c : Char} {text : Text} (absent : c ∉ text) : cut c text = text := by
  apply List.takeWhile_eq_self_iff.mpr
  intro d member
  exact decide_eq_true fun same => absent (by rwa [← same])

theorem cut_append {c : Char} {left right : Text} (absent : c ∉ left) :
    cut c (left ++ c :: right) = left := by
  rw [cut, List.takeWhile_append_of_pos]
  · simp
  · intro d member
    exact decide_eq_true fun same => absent (by rwa [← same])

theorem cut_cases (c : Char) (text : Text) :
    (c ∉ text ∧ behind c text = none ∧ cut c text = text) ∨
      ∃ left right, text = left ++ c :: right ∧ c ∉ left ∧ behind c text = some right ∧
        cut c text = left := by
  by_cases member : c ∈ text
  · obtain ⟨left, right, rfl, first⟩ := List.eq_append_cons_of_mem member
    exact .inr ⟨left, right, rfl, first, behind_append first, cut_append first⟩
  · exact .inl ⟨member, behind_eq_none member, cut_eq_self member⟩

section Arguments
variable {arg module rest : Text}

def naming (module rest : Text) (globals : Globals) : Globals :=
  { globals with
    gIsReg := 1
    gModule := some module
    gModuleMatch := 1
    gReg := some (cut '.' rest)
    gField := behind '.' rest }

theorem Dotted.dot_mem (dotted : Dotted arg module rest) : '.' ∈ arg := by
  rw [dotted.whole]
  simp

theorem Dotted.not_memtool (dotted : Dotted arg module rest) :
    strstr arg memtoolText = false :=
  Bool.eq_false_of_not_eq_true fun found => dotted.command (strstr_eq_true.mp found)

/-- The one argument is taken for the name of a register. -/
theorem parseCmdline_dotted (program : Text) (dotted : Dotted arg module rest) :
    Gives (parseCmdline [program, arg]) .start 0 (extendCommand arg .start) := by
  have here : [program, arg][1]? = some arg := rfl
  have notOption : ∀ size : Size, arg ≠ size.text := by
    intro size same
    have dot := dotted.dot_mem
    rw [same] at dot
    cases size <;> exact absurd dot (by decide)
  have notComp : arg ≠ compText := by
    intro same
    have dot := dotted.dot_mem
    rw [same] at dot
    exact absurd dot (by decide)
  have nonempty : arg ≠ [] := List.ne_nil_of_mem dotted.dot_mem
  have found : behind '.' arg = some rest := by
    rw [dotted.whole, behind_append dotted.plain]
  apply Gives.bind (sizeOption_none here notOption _)
  apply Gives.bind (compOption_gives here notComp)
  apply Gives.bind (skipMemtool_gives here dotted.not_memtool nonempty _)
  apply Gives.bind (Gives.ask Globals.gComp)
  apply Gives.bind (fetch_gives here)
  simp only [found, Option.isSome_some, or_true, if_true]
  apply Gives.bind (Gives.change _)
  exact Gives.pure 0

/-- Without a value the names are those between the first two dots. -/
theorem extendCommand_names (dotted : Dotted arg module rest) (named : '=' ∉ rest)
    (globals : Globals) : extendCommand arg globals = naming module rest globals := by
  have found : behind '.' arg = some rest := by
    rw [dotted.whole, behind_append dotted.plain]
  have front : cut '.' arg = module := by
    rw [dotted.whole, cut_append dotted.plain]
  rw [extendCommand, found, front]
  rcases cut_cases '.' rest with ⟨-, none, same⟩ | ⟨left, right, rfl, -, some, same⟩
  · simp [naming, none, same, assignValue, behind_eq_none named]
  · have value : '=' ∉ right := fun member => named (by simp [member])
    simp [naming, some, same, assignValue, behind_eq_none value]

end Arguments

/-! ## Reading -/

section Main
variable {kernel : Kernel} {table : List Module} {argv : List Text} {globals : Globals}

theorem main_parsed (parsed : Gives (parseCmdline argv) .start 0 globals)
    (registers : globals.gIsReg ≠ 0 ∨ globals.gComp ≠ 0) :
    main kernel table argv = parseModule kernel table globals >>= fun _ => pure (some 0) := by
  obtain ⟨log, run⟩ := parsed
  simp only [main, run, ne_eq, not_true_eq_false, if_false]
  rw [if_pos registers]

theorem find_module {mx : Module} (unique : (table.map Module.name).Nodup) (member : mx ∈ table) :
    (table.find? fun other => other.name = mx.name) = some mx := by
  cases found : table.find? fun other => other.name = mx.name with
  | none => exact absurd (List.find?_eq_none.mp found mx member) (by simp)
  | some other =>
      have name : other.name = mx.name := by simpa using List.find?_some found
      rw [List.inj_on_of_nodup_map unique (List.mem_of_find?_eq_some found) member name]

theorem parseModule_naming {module : Text} (nonempty : module ≠ []) (plain : '*' ∉ module)
    (rest : Text) (read : globals.gIsWrite = 0) :
    parseModule kernel table (naming module rest globals) =
      match table.find? fun mx => mx.name = module with
      | none => pure ()
      | some mx =>
          if globals.gComp = 0 then
            print (.moduleAddr mx.name mx.baseAddress) >>= fun _ =>
              parseReg kernel false mx (cut '.' rest) (behind '.' rest)
          else parseReg kernel true mx (cut '.' rest) (behind '.' rest) := by
  have whole : listed (some module) = none := by
    rw [listed]
    · exact if_neg plain
    · exact nonempty
  by_cases shown : globals.gComp = 0
  · simp [parseModule, naming, read, whole, shown]
  · simp [parseModule, naming, read, whole, shown]

/-- For an argument `module.reg` or `module.reg.field` the program shows the registers of the
module whose names are meant, and the fields of these whose names are meant, each with what
the memory has in its place, in the order of the table; memory stays as it is. -/
theorem main_lists (succeeds : kernel.Succeeds) {mx : Module}
    (unique : (table.map Module.name).Nodup) (member : mx ∈ table) (nonempty : mx.name ≠ [])
    (plain : '*' ∉ mx.name) (program : Text) {arg rest : Text}
    (dotted : Dotted arg mx.name rest) (named : '=' ∉ rest)
    (readable : ∀ r ∈ mx.regs,
      Meant (cut '.' rest) r.name ∨ Dash (cut '.' rest) → Readable mx r)
    (memory : Memory) :
    Yields (Holds memory) (main kernel table [program, arg]) (some 0)
      (listing memory mx (cut '.' rest) ((behind '.' rest).getD [])) := by
  have parsed := parseCmdline_dotted program dotted
  rw [extendCommand_names dotted named] at parsed
  rw [main_parsed parsed (.inl one_ne_zero), parseModule_naming nonempty plain rest rfl,
    find_module unique member]
  have regs := yields_parseReg succeeds memory (cut '.' rest) (behind '.' rest) readable
  have lines : Yields (Holds memory)
      (print (.moduleAddr mx.name mx.baseAddress) >>= fun _ =>
        parseReg kernel false mx (cut '.' rest) (behind '.' rest)) ()
      (listing memory mx (cut '.' rest) ((behind '.' rest).getD [])) :=
    Yields.bind (Yields.note _) regs
  rw [← List.append_nil (listing ..)]
  exact lines.bind (Yields.pure (some 0))

end Main

/-- `memtool UART.U*.E` where every byte is 0xa5. -/
theorem main_lists_uart :
    Yields (Holds fun _ => 0xa5)
      (main plainKernel RegisterWrite.oneModule
        [memtoolText, ['U', 'A', 'R', 'T', '.', 'U', '*', '.', 'E']])
      (some 0)
      [.moduleAddr ['U', 'A', 'R', 'T'] 0x02020000,
        .reg ['U', 'A', 'R', 'T'] ['U', 'C', 'R'] 0x02020080 0xa5a5a5a5,
        .field ['U', 'A', 'R', 'T'] ['U', 'C', 'R'] ['E', 'N'] 0 0 1] := by
  have dotted : Dotted ['U', 'A', 'R', 'T', '.', 'U', '*', '.', 'E'] ['U', 'A', 'R', 'T']
      ['U', '*', '.', 'E'] := ⟨rfl, by decide, by decide⟩
  have readable : ∀ mx ∈ RegisterWrite.oneModule, ∀ r ∈ mx.regs, Readable mx r := by
    simp only [RegisterWrite.oneModule, List.mem_singleton]
    rintro mx rfl r member
    rw [List.mem_singleton.mp member]
    exact ⟨by decide, by decide⟩
  exact @main_lists plainKernel RegisterWrite.oneModule plainKernel_succeeds _ (by decide)
    List.mem_cons_self (by decide) (by decide) memtoolText _ _ dotted (by decide)
    (fun r member _ => readable _ List.mem_cons_self r member) fun _ => 0xa5

end ImxTest.Memtool.Query
