import ImxTest.Memtool.Query

/-!
# Writing a field and reading it

A field is written by one call of the program and read by another: `module.reg.field=value`
and then `module.reg.field`.
-/

set_option autoImplicit false

namespace ImxTest.Memtool.Query

open ImxTest.Lib.BitField
open ImxTest.Lib.CString
open ImxTest.Lib.Traced
open ImxTest.Memtool.CommandLine
open ImxTest.Memtool.RegisterWrite

/-- A name that an argument can have as one of its parts. -/
structure PlainName (name : Text) : Prop where
  nonempty : name ≠ []
  dot : '.' ∉ name
  star : '*' ∉ name
  equal : '=' ∉ name
  dash : name.head? ≠ some '-'
  command : ¬ memtoolText <:+: name

/-- A field of the table that can be written. -/
structure Writable (table : List Module) (mx : Module) (r : Reg) (f : Field) : Prop where
  module : mx ∈ table
  reg : r ∈ mx.regs
  field : f ∈ r.fields
  writable : f.isWritable = true
  order : f.lsb ≤ f.msb
  inside : f.msb < 8 * r.width.toNat
  readable : ∀ r ∈ mx.regs, Readable mx r
  module_name : PlainName mx.name
  reg_name : PlainName r.name
  field_name : PlainName f.name

/-- What a write of the field changes in memory. -/
structure Updated (mx : Module) (r : Reg) (f : Field) (value : Word) (before after : Memory) :
    Prop where
  written : (fieldValue after mx r f).toNat = value.toNat % 2 ^ (f.msb - f.lsb + 1)
  /-- The other fields of the register. -/
  others : ∀ other : Field, other.msb < 32 → other.lsb ≤ other.msb →
    other.msb < f.lsb ∨ f.msb < other.lsb → fieldValue after mx r other = fieldValue before mx r other
  /-- The other addresses. -/
  apart : ∀ addr, (∀ k < r.width.toNat, addr ≠ mx.baseAddress + r.offset + BitVec.ofNat 32 k) →
    after addr = before addr

section Names
variable {table : List Module} {mx : Module} {r : Reg} {f : Field}

theorem no_memtool_dot {left right : Text} (first : ¬ memtoolText <:+: left)
    (second : ¬ memtoolText <:+: right) : ¬ memtoolText <:+: left ++ '.' :: right := by
  rw [infix_append_separator (by decide)]
  exact not_or.mpr ⟨first, second⟩

theorem no_memtool_equal {left right : Text} (first : ¬ memtoolText <:+: left)
    (second : ¬ memtoolText <:+: right) : ¬ memtoolText <:+: left ++ '=' :: right := by
  rw [infix_append_separator (by decide)]
  exact not_or.mpr ⟨first, second⟩

/-- `module.reg.field`, with what follows the name of the field. -/
theorem Writable.dotted (writable : Writable table mx r f) {rest : Text}
    (command : ¬ memtoolText <:+: rest) :
    Dotted (mx.name ++ '.' :: (r.name ++ '.' :: rest)) mx.name (r.name ++ '.' :: rest) :=
  ⟨rfl, writable.module_name.dot,
    no_memtool_dot writable.module_name.command
      (no_memtool_dot writable.reg_name.command command)⟩

theorem extendCommand_assign {module reg field value : Text} (module_dot : '.' ∉ module)
    (reg_dot : '.' ∉ reg) (field_equal : '=' ∉ field) (globals : Globals) :
    extendCommand (module ++ '.' :: (reg ++ '.' :: (field ++ '=' :: value))) globals =
      { naming module (reg ++ '.' :: field) globals with
        gIsWrite := 1
        gValue := number value } := by
  simp [extendCommand, naming, assignValue, behind_append module_dot, cut_append module_dot,
    behind_append reg_dot, cut_append reg_dot, behind_append field_equal, cut_append field_equal]

/-- With unique names the search gives the one write. -/
theorem lookup_field (unique : UniqueNames table) (writable : Writable table mx r f)
    (value : Word) :
    ∃ n, RegisterWrite.parseModule table ⟨mx.name, r.name, some f.name, value⟩ =
      ⟨.returned, [.write (.mask (mx.baseAddress + r.offset) r.width value f.lsb f.msb)], n⟩ := by
  have known : HasModule table ⟨mx.name, r.name, some f.name, value⟩ :=
    ⟨mx, writable.module, rfl⟩
  obtain ⟨mx', member, module_name, n, -, run⟩ := moduleLoop_found known
  obtain rfl := List.inj_on_of_nodup_map unique.modules member writable.module module_name
  have found : ∃ other ∈ mx'.regs, other.name = r.name := ⟨r, writable.reg, rfl⟩
  obtain ⟨r', reg, reg_name, regs⟩ :=
    @regLoop_found ⟨mx'.name, r.name, some f.name, value⟩ mx' mx'.regs found
  obtain rfl := List.inj_on_of_nodup_map (unique.regs mx' member) reg writable.reg reg_name
  have named : (⟨mx'.name, r'.name, some f.name, value⟩ : RegisterWrite.Query).fieldName =
      some f.name := by
    simp [RegisterWrite.Query.fieldName, writable.field_name.nonempty]
  refine ⟨n, ?_⟩
  rw [RegisterWrite.parseModule, run, regs, foundReg, named]
  dsimp only
  rw [fieldLoop_eq, filter_name (unique.fields mx' member r' reg) writable.field]
  simp [fieldEvent, writable.writable]

end Names

section Writing
variable {kernel : Kernel} {table : List Module} {mx : Module} {r : Reg} {f : Field}

theorem fieldValue_putField {before after : Memory} {value : Word}
    (register : regValue after mx r = putField (regValue before mx r) value f.lsb f.msb)
    (order : f.lsb ≤ f.msb) (high : f.msb < 32) :
    (fieldValue after mx r f).toNat = value.toNat % 2 ^ (f.msb - f.lsb + 1) := by
  rw [fieldValue, register]
  apply takeField_eq_mod order high
  intro i small
  have inside : f.lsb ≤ f.lsb + i ∧ f.lsb + i ≤ f.msb := by omega
  rw [getLsbD_putField high, if_pos inside, Nat.add_sub_cancel_left]

theorem fieldValue_other {before after : Memory} {value : Word} {other : Field}
    (register : regValue after mx r = putField (regValue before mx r) value f.lsb f.msb)
    (high : f.msb < 32) (high_other : other.msb < 32) (order : other.lsb ≤ other.msb)
    (disjoint : other.msb < f.lsb ∨ f.msb < other.lsb) :
    fieldValue after mx r other = fieldValue before mx r other := by
  rw [fieldValue, fieldValue, register]
  apply BitVec.eq_of_getLsbD_eq
  intro i _
  rw [getLsbD_takeField order high_other, getLsbD_takeField order high_other]
  by_cases inside : i ≤ other.msb - other.lsb
  · have outside : ¬ (f.lsb ≤ other.lsb + i ∧ other.lsb + i ≤ f.msb) := by omega
    simp [inside, getLsbD_putField high, outside]
  · simp [inside]

theorem read_write_putField (memory : Memory) (address value : Word) {count lsb msb : Nat}
    (small : count ≤ 4) (inside : msb < 8 * count) :
    (Memory.write address count (putField (memory.read address count) value lsb msb) memory).read
      address count = putField (memory.read address count) value lsb msb := by
  apply BitVec.eq_of_getLsbD_eq
  intro i _
  rw [Memory.getLsbD_read_write _ _ _ small]
  by_cases low : i < 8 * count
  · simp [low]
  · have outside : ¬ (lsb ≤ i ∧ i ≤ msb) := by omega
    have above := Memory.getLsbD_read_above memory address count (Nat.le_of_not_lt low)
    rw [decide_eq_false low, Bool.false_and, getLsbD_putField (by omega), if_neg outside, above]

theorem performEvent_updates (succeeds : kernel.Succeeds) (writable : Writable table mx r f)
    (memory : Memory) (value : Word) :
    ∃ final,
      performEvent kernel
          (.write (.mask (mx.baseAddress + r.offset) r.width value f.lsb f.msb)) (.start memory) =
        ⟨[.writing (.mask (mx.baseAddress + r.offset) r.width value f.lsb f.msb)], final, .ok ()⟩ ∧
      Updated mx r f value memory final.physical := by
  have fresh : Holds memory (.start memory) := ⟨.inl ⟨rfl, rfl, rfl⟩, rfl⟩
  have readable := writable.readable r writable.reg
  obtain ⟨opened, register, -⟩ := readm_holds succeeds fresh readable
  have bytes : r.width.toNat ≤ 4 := (width_bounds readable.1.1).2
  have high : f.msb < 32 := by
    have inside := writable.inside
    omega
  obtain ⟨final, -, -, written, -, -, physical⟩ :=
    @writeRegMask_register kernel succeeds memory _ _ _ _ _ .start register value f.lsb f.msb
      writable.inside
  have after : regValue final.physical mx r =
      putField (regValue memory mx r) value f.lsb f.msb := by
    rw [regValue, physical]
    exact read_write_putField memory _ value bytes writable.inside
  refine ⟨final, ?_, ?_, ?_, ?_⟩
  · simp [performEvent, performWrite, print, attempt, written, Except.map]
  · exact fieldValue_putField after writable.order high
  · intro other high_other order disjoint
    exact fieldValue_other after high high_other order disjoint
  · intro addr apart
    rw [physical, Memory.write_outside _ apart]
    rfl

end Writing

/-! ## Two calls of the program -/

section Calls
variable {kernel : Kernel} {table : List Module} {mx : Module} {r : Reg} {f : Field}

/-- `module.reg.field=value` writes the one field. -/
theorem main_writes (succeeds : kernel.Succeeds) (unique : UniqueNames table)
    (writable : Writable table mx r f) (program : Text) {value : Text}
    (command : ¬ memtoolText <:+: value) (memory : Memory) :
    ∃ final,
      main kernel table
          [program, mx.name ++ '.' :: (r.name ++ '.' :: (f.name ++ '=' :: value))]
          (.start memory) =
        ⟨[.writing (.mask (mx.baseAddress + r.offset) r.width (number value) f.lsb f.msb)],
          final, .ok (some 0)⟩ ∧
      Updated mx r f (number value) memory final.physical := by
  have dotted := writable.dotted (no_memtool_equal writable.field_name.command command)
  have parsed := parseCmdline_dotted program dotted
  rw [extendCommand_assign writable.module_name.dot writable.reg_name.dot
    writable.field_name.equal] at parsed
  obtain ⟨n, lookup⟩ := lookup_field unique writable (number value)
  obtain ⟨final, performed, updated⟩ :=
    performEvent_updates succeeds writable memory (number value)
  refine ⟨final, ?_, updated⟩
  rw [main_parsed parsed (.inl one_ne_zero)]
  simp [parseModule, naming, cut_append writable.reg_name.dot,
    behind_append writable.reg_name.dot, lookup, performed, Globals.start]

end Calls

/-- A field of two bits among others, in a register of two bytes. -/
def modeField : Field := ⟨['M', 'O', 'D', 'E'], 3, 4, true⟩

def modeReg : Reg := ⟨['C', 'T', 'R', 'L'], 2, 0x10, true, [⟨['E', 'N'], 0, 0, true⟩, modeField]⟩

def modeModule : Module := ⟨['P', 'W', 'M'], 0x02080000, [modeReg]⟩

theorem modeModule_writable : Writable [modeModule] modeModule modeReg modeField where
  module := List.mem_cons_self
  reg := List.mem_cons_self
  field := List.mem_cons_of_mem _ List.mem_cons_self
  writable := rfl
  order := by decide
  inside := by decide
  readable := by
    intro r member
    rw [List.mem_singleton.mp member]
    exact ⟨by decide, by decide⟩
  module_name := ⟨by decide, by decide, by decide, by decide, by decide, by decide⟩
  reg_name := ⟨by decide, by decide, by decide, by decide, by decide, by decide⟩
  field_name := ⟨by decide, by decide, by decide, by decide, by decide, by decide⟩

end ImxTest.Memtool.Query
