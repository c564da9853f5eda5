import ImxTest.Lib.BitField
import ImxTest.Memtool.Window

/-!
# Writing a field of a register

`write_reg_mask` reads the register, puts the value into the bits of the field and writes
the register back; `get_value` takes the bits of a field out of a value.  What a register
holds is what `readm` returns for it.
-/

set_option autoImplicit false

namespace ImxTest.Memtool

open ImxTest.Lib.BitField

/-- The shift is that of an `int`. -/
def getValue (value : Word) (lsb msb : Nat) : Word :=
  value.sshiftRight lsb &&& (0xFFFFFFFF#32 >>> (31 - (msb - lsb)))

def maskValue (org value : Word) (lsb msb : Nat) : Word :=
  let mask := 0xFFFFFFFF#32
  let mask := mask >>> lsb
  let mask := mask <<< lsb
  let mask := mask <<< (31 - msb)
  let mask := mask >>> (31 - msb)
  let org := org &&& ~~~mask
  let value := value <<< lsb
  org ||| (value &&& mask)

def writeRegMask (kernel : Kernel) (addr : Word) (width : Int) (value : Word) (lsb msb : Nat)
    (tool : Tool) : Except Stop Tool := do
  let (org, tool) ← readm kernel addr width tool
  writem kernel addr width (maskValue org value lsb msb) tool

/-- The states of the program between its accesses. -/
inductive Reached (kernel : Kernel) (memory : Memory) : Tool → Prop
  | start : Reached kernel memory (.start memory)
  | perform {tool next : Tool} {call : Call} {value : Option Word}
      (before : Reached kernel memory tool)
      (performed : call.perform kernel tool = .ok (value, next)) : Reached kernel memory next

theorem getValue_eq (value : Word) (lsb msb : Nat) :
    getValue value lsb msb = takeField value lsb msb := rfl

theorem maskValue_eq (org value : Word) (lsb msb : Nat) :
    maskValue org value lsb msb = putField org value lsb msb := rfl

/-! ## Bytes of a register -/

namespace Memory

theorem getLsbD_read_above (memory : Memory) (address : Word) (count : Nat) {i : Nat}
    (above : 8 * count ≤ i) : (memory.read address count).getLsbD i = false := by
  induction count generalizing address i with
  | zero =>
      rw [read]
      exact BitVec.getLsbD_zero
  | succ count ih =>
      rw [read, BitVec.getLsbD_or, BitVec.getLsbD_shiftLeft, BitVec.getLsbD_setWidth,
        ih (address + 1) (by omega), BitVec.getLsbD_of_ge _ i (by omega)]
      simp

theorem write_outside {memory : Memory} {address other : Word} {count : Nat} (value : Word)
    (outside : ∀ k < count, other ≠ address + BitVec.ofNat 32 k) :
    write address count value memory other = memory other := by
  induction count generalizing memory address value with
  | zero => rfl
  | succ count ih =>
      have first : other ≠ address := by
        simpa using outside 0 (Nat.succ_pos count)
      have later : ∀ k < count, other ≠ address + 1 + BitVec.ofNat 32 k := by
        intro k small
        have next := outside (k + 1) (Nat.succ_lt_succ small)
        rwa [Nat.add_comm, BitVec.ofNat_add, ← BitVec.add_assoc] at next
      rw [write, ih (value >>> 8) later, Function.update_of_ne first]

theorem first_outside (address : Word) {count : Nat} (small : count ≤ 4) :
    ∀ k < count, address ≠ address + 1 + BitVec.ofNat 32 k := by
  intro k less same
  have numbers := congrArg BitVec.toNat same
  have below := address.isLt
  rw [BitVec.toNat_add, BitVec.toNat_add, BitVec.toNat_ofNat] at numbers
  change address.toNat = _ at numbers
  rw [show (1 : Word).toNat = 1 from rfl] at numbers
  omega

theorem getLsbD_read_write (memory : Memory) (address value : Word) {count : Nat}
    (small : count ≤ 4) (i : Nat) :
    ((write address count value memory).read address count).getLsbD i =
      (decide (i < 8 * count) && value.getLsbD i) := by
  induction count generalizing memory address value i with
  | zero =>
      rw [read]
      simp
  | succ count ih =>
      have byte : write (address + 1) count (value >>> 8)
          (Function.update memory address (value.setWidth 8)) address = value.setWidth 8 := by
        rw [write_outside _ (first_outside address (by omega)), Function.update_self]
      rw [read, write, BitVec.getLsbD_or, BitVec.getLsbD_shiftLeft, byte,
        ih _ _ _ (by omega), BitVec.getLsbD_setWidth, BitVec.getLsbD_setWidth,
        BitVec.getLsbD_ushiftRight]
      by_cases low : i < 8
      · have word : i < 32 := by omega
        have inside : i < 8 * (count + 1) := by omega
        simp [low, word, inside]
      · by_cases inside : i < 8 * (count + 1)
        · have word : i < 32 := by omega
          have upper : i - 8 < 8 * count := by omega
          have place : 8 + (i - 8) = i := by omega
          simp [low, word, inside, upper, place]
        · have upper : ¬ i - 8 < 8 * count := by omega
          simp [low, inside, upper]

end Memory

/-! ## Accesses that succeed -/

section Crossing
variable {tool : Tool} {page : Word}

theorem Tool.Windowed.translate_outside (windowed : tool.Windowed page) {offset : Word}
    (outside : 0x1000 ≤ offset.toNat) : tool.translate (tool.gMapVaddr + offset) = none := by
  have difference : tool.gMapVaddr + offset - tool.gMapVaddr = offset := by
    rw [BitVec.add_comm, BitVec.add_sub_cancel]
  have beyond : ¬ offset < mapSize := Nat.not_lt.mpr outside
  rw [Tool.translate, windowed]
  simp [difference, beyond]

theorem offset_add_one {offset : Word} (inside : offset.toNat < 0x1000) :
    (offset + 1).toNat = offset.toNat + 1 := by
  have small : offset.toNat + (1 : Word).toNat < 2 ^ 32 := by
    rw [show (1 : Word).toNat = 1 from rfl]
    omega
  rw [BitVec.toNat_add_of_lt small]
  rfl

/-- Behind the page nothing is mapped. -/
theorem Tool.Windowed.load_crossing (windowed : tool.Windowed page) {count : Nat} {offset : Word}
    (begins : offset.toNat ≤ 0x1000) (crosses : 0x1000 < offset.toNat + count) :
    tool.load (tool.gMapVaddr + offset) count = .error .fault := by
  induction count generalizing offset with
  | zero => omega
  | succ count ih =>
      by_cases inside : offset.toNat < 0x1000
      · have next := offset_add_one inside
        have later := ih (show (offset + 1).toNat ≤ 0x1000 by omega) (by omega)
        rw [← BitVec.add_assoc] at later
        rw [Tool.load, windowed.translate inside]
        simp only [later]
        rfl
      · rw [Tool.load, windowed.translate_outside (by omega)]

theorem Tool.Windowed.store_crossing (windowed : tool.Windowed page) {count : Nat}
    {offset : Word} (value : Word) (begins : offset.toNat ≤ 0x1000)
    (crosses : 0x1000 < offset.toNat + count) :
    tool.store (tool.gMapVaddr + offset) count value = .error .fault := by
  induction count generalizing tool offset value with
  | zero => omega
  | succ count ih =>
      by_cases inside : offset.toNat < 0x1000
      · have next := offset_add_one inside
        have kept : (tool.setByte (page + offset) (value.setWidth 8)).Windowed page := windowed
        have later := ih kept (value >>> 8) (show (offset + 1).toNat ≤ 0x1000 by omega) (by omega)
        rw [← BitVec.add_assoc] at later
        rw [Tool.store, windowed.translate inside]
        exact later
      · rw [Tool.store, windowed.translate_outside (by omega)]

end Crossing

theorem offsetOf_le (address : Word) : (offsetOf address).toNat ≤ 0x1000 := by
  have masked : (offsetOf address).toNat ≤ (mapSize - 1).toNat := by
    rw [offsetOf, BitVec.toNat_and]
    exact Nat.and_le_right
  exact masked.trans (by decide)

theorem onWidth_unknown {Value : Type} {width : Int} (unknown : width ∉ [1, 2, 4])
    (access : Nat → Except Stop Value) :
    onWidth width access = .error (.die "Unknown size\n") := by
  rw [onWidth]
  · rintro rfl
    exact unknown (by decide)
  · rintro rfl
    exact unknown (by decide)
  · rintro rfl
    exact unknown (by decide)

/-- Nothing is mapped, or the page that is remembered. -/
def Tool.Usable (tool : Tool) : Prop :=
  tool.Fresh ∨ tool.Remembers

section Succeeding
variable {kernel : Kernel} (succeeds : kernel.Succeeds)
include succeeds

theorem width_of_perform {tool : Tool} {call : Call} {result : Option Word × Tool}
    (performed : call.perform kernel tool = .ok result) : call.width ∈ [1, 2, 4] := by
  by_contra unknown
  obtain ⟨fd, _, returned⟩ := openMemFile_ok succeeds tool
  cases call with
  | readm address width =>
      have other : width ∉ [1, 2, 4] := unknown
      rw [Call.perform, readm, returned] at performed
      simp only [bind, Except.bind, onWidth_unknown other] at performed
      cases performed
  | writem address width value =>
      have other : width ∉ [1, 2, 4] := unknown
      rw [Call.perform, writem, returned] at performed
      simp only [bind, Except.bind, onWidth_unknown other] at performed
      cases performed

/-- The page of a call that succeeds is mapped for it. -/
theorem mapAddress_of_perform {tool : Tool} (usable : tool.Usable) {call : Call}
    {result : Option Word × Tool} (performed : call.perform kernel tool = .ok result) :
    ∃ opened, openMemFile kernel tool = .ok opened ∧
      (mapAddress kernel call.address opened).Remembers ∧
      (mapAddress kernel call.address opened).gMapPaddr = pageOf call.address ∧
      (mapAddress kernel call.address opened).physical = tool.physical := by
  obtain ⟨fd, opened, returned⟩ := openMemFile_ok succeeds tool
  refine ⟨_, returned, ?_⟩
  obtain fresh | remembers := usable
  · have other : pageOf call.address ≠ 0 := by
      intro zero
      rw [perform_page_zero succeeds fresh (width_of_perform succeeds performed) zero] at performed
      cases performed
    have fresh' : { tool with gFmem := fd }.Fresh := ⟨fresh.vaddr, fresh.paddr, fresh.mappings⟩
    exact mapAddress_fresh succeeds opened fresh' other
  · have open' : { tool with gFmem := fd }.Remembers :=
      ⟨opened, remembers.mapped, remembers.window⟩
    exact mapAddress_remembers succeeds open' call.address

theorem fits_of_perform {tool : Tool} (usable : tool.Usable) {call : Call}
    {result : Option Word × Tool} (performed : call.perform kernel tool = .ok result) :
    call.Fits := by
  have known := width_of_perform succeeds performed
  refine ⟨known, ?_⟩
  by_contra crosses
  obtain ⟨opened, returned, remembers, page, -⟩ :=
    mapAddress_of_perform succeeds usable performed
  have window := remembers.window
  have begins := offsetOf_le call.address
  cases call with
  | readm address width =>
      simp only [Call.address, Call.width] at window begins crosses
      rw [Call.perform, @readm_eq _ _ _ width address known returned,
        window.load_crossing begins (Nat.lt_of_not_le crosses)] at performed
      cases performed
  | writem address width value =>
      simp only [Call.address, Call.width] at window begins crosses
      rw [Call.perform, @writem_eq _ _ _ width address value known returned,
        window.store_crossing value begins (Nat.lt_of_not_le crosses)] at performed
      cases performed

theorem perform_usable {tool : Tool} (usable : tool.Usable) {call : Call}
    {result : Option Word × Tool} (performed : call.perform kernel tool = .ok result) :
    result.1 = (call.onFlat tool.physical).1 ∧ result.2.Remembers ∧
      result.2.physical = (call.onFlat tool.physical).2 := by
  obtain ⟨opened, returned, remembers, page, physical⟩ :=
    mapAddress_of_perform succeeds usable performed
  obtain ⟨next, same, after, -, memory⟩ :=
    perform_mapped (fits_of_perform succeeds usable performed) returned rfl remembers page
  rw [performed] at same
  cases Except.ok.inj same
  rw [physical] at memory
  exact ⟨by rw [← physical], after, memory⟩

theorem Reached.usable {memory : Memory} {tool : Tool} (reached : Reached kernel memory tool) :
    tool.Usable := by
  induction reached with
  | start => exact .inl ⟨rfl, rfl, rfl⟩
  | perform before performed ih => exact .inr (perform_usable succeeds ih performed).2.1

theorem readm_usable {tool next : Tool} (usable : tool.Usable) {address value : Word}
    {width : Int} (returned : readm kernel address width tool = .ok (value, next)) :
    (Call.readm address width).Fits ∧ value = tool.physical.read address width.toNat ∧
      next.Remembers ∧ next.physical = tool.physical := by
  have performed : (Call.readm address width).perform kernel tool = .ok (some value, next) := by
    rw [Call.perform, returned]
    rfl
  obtain ⟨same, after, physical⟩ := perform_usable succeeds usable performed
  exact ⟨fits_of_perform succeeds usable performed, Option.some.inj same, after, physical⟩

theorem readm_remembers {tool : Tool} (remembers : tool.Remembers) {address : Word} {width : Int}
    (fits : (Call.readm address width).Fits) :
    ∃ next, readm kernel address width tool =
      .ok (tool.physical.read address width.toNat, next) := by
  obtain ⟨next, performed, -⟩ := perform_remembers succeeds remembers fits
  rw [Call.perform] at performed
  cases returned : readm kernel address width tool with
  | error stop =>
      rw [returned] at performed
      cases performed
  | ok result =>
      obtain ⟨value, last⟩ := result
      rw [returned] at performed
      cases Except.ok.inj performed
      exact ⟨_, rfl⟩

theorem writem_remembers {tool : Tool} (remembers : tool.Remembers) {address : Word} {width : Int}
    (fits : (Call.readm address width).Fits) (value : Word) :
    ∃ next, writem kernel address width value tool = .ok next ∧ next.Remembers ∧
      next.physical = Memory.write address width.toNat value tool.physical := by
  have fits' : (Call.writem address width value).Fits := fits
  obtain ⟨next, performed, after, -, physical⟩ := perform_remembers succeeds remembers fits'
  rw [Call.perform] at performed
  cases returned : writem kernel address width value tool with
  | error stop =>
      rw [returned] at performed
      cases performed
  | ok result =>
      rw [returned] at performed
      cases Except.ok.inj performed
      exact ⟨_, rfl, after, physical⟩

/-- What the register holds after the write is what is put into it. -/
theorem writeRegMask_register {memory : Memory} {tool after : Tool} {addr old : Word} {width : Int}
    (reached : Reached kernel memory tool)
    (register : readm kernel addr width tool = .ok (old, after)) (value : Word) {lsb msb : Nat}
    (inside : msb < 8 * width.toNat) :
    ∃ next last new, writeRegMask kernel addr width value lsb msb tool = .ok next ∧
      readm kernel addr width next = .ok (new, last) ∧ new = putField old value lsb msb ∧
      next.physical =
        Memory.write addr width.toNat (putField old value lsb msb) tool.physical := by
  obtain ⟨fits, read, remembers, same⟩ :=
    readm_usable succeeds (reached.usable succeeds) register
  obtain ⟨next, written, kept, physical⟩ :=
    writem_remembers succeeds remembers fits (maskValue old value lsb msb)
  obtain ⟨last, again⟩ := readm_remembers succeeds kept fits
  have bytes : width.toNat ≤ 4 := (width_bounds fits.1).2
  rw [maskValue_eq] at written physical
  rw [same] at physical
  refine ⟨next, last, _, ?_, again, ?_, physical⟩
  · rw [writeRegMask, register]
    exact written
  · rw [physical]
    apply BitVec.eq_of_getLsbD_eq
    intro i _
    rw [Memory.getLsbD_read_write _ _ _ bytes]
    by_cases low : i < 8 * width.toNat
    · rw [decide_eq_true low, Bool.true_and]
    · have outside : ¬ (lsb ≤ i ∧ i ≤ msb) := by omega
      rw [decide_eq_false low, Bool.false_and, getLsbD_putField (by omega), if_neg outside, read,
        Memory.getLsbD_read_above _ _ _ (Nat.le_of_not_lt low)]

end Succeeding

theorem writeRegMask_field {kernel : Kernel} (succeeds : kernel.Succeeds) {memory : Memory}
    {tool after : Tool} (reached : Reached kernel memory tool) {addr old : Word} {width : Int}
    (register : readm kernel addr width tool = .ok (old, after)) (value : Word) {lsb msb : Nat}
    (order : lsb ≤ msb) (inside : msb < 8 * width.toNat) :
    ∃ next last new, writeRegMask kernel addr width value lsb msb tool = .ok next ∧
      readm kernel addr width next = .ok (new, last) ∧
      (getValue new lsb msb).toNat = value.toNat % 2 ^ (msb - lsb + 1) ∧
      (∀ i, i < lsb ∨ msb < i → new.getLsbD i = old.getLsbD i) ∧
      ∀ other, (∀ k < width.toNat, other ≠ addr + BitVec.ofNat 32 k) →
        next.physical other = tool.physical other := by
  obtain ⟨next, last, new, written, again, put, physical⟩ :=
    writeRegMask_register succeeds reached register value inside
  have high : msb < 32 := by
    have fits := (readm_usable succeeds (reached.usable succeeds) register).1
    have bytes : width.toNat ≤ 4 := (width_bounds fits.1).2
    omega
  refine ⟨next, last, new, written, again, ?_, ?_, ?_⟩
  · rw [getValue_eq, put]
    apply takeField_eq_mod order high
    intro i small
    have field : lsb ≤ lsb + i ∧ lsb + i ≤ msb := by omega
    rw [getLsbD_putField high, if_pos field, Nat.add_sub_cancel_left]
  · intro i outside
    have other : ¬ (lsb ≤ i ∧ i ≤ msb) := by omega
    rw [put, getLsbD_putField high, if_neg other]
  · intro other outside
    rw [physical, Memory.write_outside _ outside]

theorem writeRegMask_field_halfword :
    ∃ next last new,
      writeRegMask plainKernel 0x020e0004 2 0x1235 4 15 (.start fun _ => 0xa5) = .ok next ∧
        readm plainKernel 0x020e0004 2 next = .ok (new, last) ∧
        (getValue new 4 15).toNat = (0x1235 : Word).toNat % 2 ^ (15 - 4 + 1) ∧
        (∀ i, i < 4 ∨ 15 < i → new.getLsbD i = (0xa5a5 : Word).getLsbD i) ∧
        ∀ other, (∀ k < 2, other ≠ 0x020e0004 + BitVec.ofNat 32 k) →
          next.physical other = 0xa5 := by
  obtain ⟨after, register⟩ : ∃ after, readm plainKernel 0x020e0004 2 (.start fun _ => 0xa5) =
      .ok (0xa5a5, after) := ⟨_, rfl⟩
  exact writeRegMask_field plainKernel_succeeds .start register 0x1235 (by decide) (by decide)

end ImxTest.Memtool
