import Mathlib.Data.List.Basic
import Mathlib.Tactic.Common

/-!
# The page window of `memtool`

`memtool` reads and writes physical memory through one page of `/dev/mem` that it
maps where the last access was.  `g_map_paddr` remembers which page that is, and an
access to the same page maps nothing.  At the start it is 0 although nothing is
mapped yet.

The kernel is a parameter: what `open` returns and where each `mmap` puts the page.
-/

set_option autoImplicit false

namespace ImxTest.Memtool

abbrev Byte : Type := BitVec 8

abbrev Word : Type := BitVec 32

abbrev Memory : Type := Word → Byte

/-- One page of `/dev/mem` in the address space. -/
structure Mapping where
  base : Word
  page : Word
  deriving DecidableEq, Repr

structure Tool where
  gFmem : Int
  gMapVaddr : Word
  gMapPaddr : Word
  /-- What is mapped now. -/
  mappings : List Mapping
  /-- How often `mmap` was called. -/
  mmaps : Nat
  physical : Memory

def Tool.start (physical : Memory) : Tool where
  gFmem := 0
  gMapVaddr := 0
  gMapPaddr := 0
  mappings := []
  mmaps := 0
  physical := physical

structure Kernel where
  fd : Int
  /-- The result of each call of `mmap`. -/
  base : Nat → Word

/-- `open` and `mmap` succeed; neither a descriptor nor an address is 0 then. -/
structure Kernel.Succeeds (kernel : Kernel) : Prop where
  fd : 0 < kernel.fd
  base : ∀ n, kernel.base n ≠ 0

/-- How the program ends inside a call. -/
inductive Stop where
  | die (text : String)
  | fault
  deriving DecidableEq, Repr

/-! ## The program -/

def mapSize : Word := 0x1000

def pageOf (address : Word) : Word :=
  address &&& ~~~(mapSize - 1)

def offsetOf (address : Word) : Word :=
  address &&& (mapSize - 1)

def openMemFile (kernel : Kernel) (tool : Tool) : Except Stop Tool :=
  let tool := if tool.gFmem = 0 then { tool with gFmem := kernel.fd } else tool
  if tool.gFmem = 0 then .error (.die "Can't open file /dev/mem\n") else .ok tool

namespace Tool

def munmap (vaddr : Word) (tool : Tool) : Tool :=
  { tool with mappings := tool.mappings.filter fun mapping => mapping.base ≠ vaddr }

def mmap (kernel : Kernel) (page : Word) (tool : Tool) : Word × Tool :=
  (kernel.base tool.mmaps,
    { tool with
      mappings := ⟨kernel.base tool.mmaps, page⟩ :: tool.mappings
      mmaps := tool.mmaps + 1 })

def translate (tool : Tool) (vaddr : Word) : Option Word :=
  (tool.mappings.find? fun mapping => vaddr - mapping.base < mapSize).map fun mapping =>
    mapping.page + (vaddr - mapping.base)

/-- A little-endian load of `count` bytes. -/
def load (tool : Tool) : Word → Nat → Except Stop Word
  | _, 0 => .ok 0
  | vaddr, count + 1 =>
      match tool.translate vaddr with
      | none => .error .fault
      | some paddr => do
          let upper ← tool.load (vaddr + 1) count
          return (upper <<< 8) ||| (tool.physical paddr).setWidth 32

def setByte (tool : Tool) (paddr : Word) (byte : Byte) : Tool :=
  { tool with physical := Function.update tool.physical paddr byte }

/-- A little-endian store of the low `count` bytes. -/
def store : Word → Nat → Word → Tool → Except Stop Tool
  | _, 0, _, tool => .ok tool
  | vaddr, count + 1, value, tool =>
      match tool.translate vaddr with
      | none => .error .fault
      | some paddr => store (vaddr + 1) count (value >>> 8) (tool.setByte paddr (value.setWidth 8))

end Tool

def mapAddress (kernel : Kernel) (address : Word) (tool : Tool) : Tool :=
  if pageOf address = tool.gMapPaddr then tool
  else
    let tool := if tool.gMapVaddr ≠ 0 then tool.munmap tool.gMapVaddr else tool
    let (vaddr, tool) := tool.mmap kernel (pageOf address)
    { tool with gMapVaddr := vaddr, gMapPaddr := pageOf address }

def onWidth {Value : Type} (width : Int) (access : Nat → Except Stop Value) : Except Stop Value :=
  match width with
  | 1 => access 1
  | 2 => access 2
  | 4 => access 4
  | _ => .error (.die "Unknown size\n")

def readm (kernel : Kernel) (address : Word) (width : Int) (tool : Tool) :
    Except Stop (Word × Tool) := do
  let tool ← openMemFile kernel tool
  let tool := mapAddress kernel address tool
  let value ← onWidth width (tool.load (tool.gMapVaddr + offsetOf address))
  return (value, tool)

def writem (kernel : Kernel) (address : Word) (width : Int) (value : Word) (tool : Tool) :
    Except Stop Tool := do
  let tool ← openMemFile kernel tool
  let tool := mapAddress kernel address tool
  onWidth width fun count => tool.store (tool.gMapVaddr + offsetOf address) count value

/-! ## Calls and flat memory -/

inductive Call where
  | readm (address : Word) (width : Int)
  | writem (address : Word) (width : Int) (value : Word)
  deriving DecidableEq, Repr

namespace Call

def address : Call → Word
  | .readm address _ => address
  | .writem address _ _ => address

def width : Call → Int
  | .readm _ width => width
  | .writem _ width _ => width

/-- A width that exists, and no page boundary inside. -/
def Fits (call : Call) : Prop :=
  call.width ∈ [1, 2, 4] ∧ (offsetOf call.address).toNat + call.width.toNat ≤ 0x1000

instance : DecidablePred Fits := fun call =>
  inferInstanceAs (Decidable (call.width ∈ [1, 2, 4] ∧
    (offsetOf call.address).toNat + call.width.toNat ≤ 0x1000))

def perform (kernel : Kernel) (tool : Tool) : Call → Except Stop (Option Word × Tool)
  | .readm address width => do
      let (value, tool) ← Memtool.readm kernel address width tool
      return (some value, tool)
  | .writem address width value => do
      let tool ← Memtool.writem kernel address width value tool
      return (none, tool)

end Call

namespace Memory

def read (memory : Memory) : Word → Nat → Word
  | _, 0 => 0
  | address, count + 1 =>
      (memory.read (address + 1) count <<< 8) ||| (memory address).setWidth 32

def write : Word → Nat → Word → Memory → Memory
  | _, 0, _, memory => memory
  | address, count + 1, value, memory =>
      write (address + 1) count (value >>> 8) (Function.update memory address (value.setWidth 8))

end Memory

def Call.onFlat (memory : Memory) : Call → Option Word × Memory
  | .readm address width => (some (memory.read address width.toNat), memory)
  | .writem address width value => (none, memory.write address width.toNat value)

/-- Every call goes through the one mapping there is, which is of the page of its
address, and returns what flat memory returns. -/
def Flat (kernel : Kernel) : List Call → Tool → Memory → Prop
  | [], _, _ => True
  | call :: rest, tool, memory =>
      ∃ value next, call.perform kernel tool = .ok (value, next) ∧
        next.mappings = [⟨next.gMapVaddr, pageOf call.address⟩] ∧
        value = (call.onFlat memory).1 ∧ Flat kernel rest next (call.onFlat memory).2

/-! ## Access through the window -/

theorem page_add_offset (address : Word) : pageOf address + offsetOf address = address := by
  have apart : pageOf address &&& offsetOf address = 0#32 := by
    apply BitVec.eq_of_getLsbD_eq
    intro i bound
    simp only [pageOf, offsetOf, BitVec.getLsbD_and, BitVec.getLsbD_not, BitVec.getLsbD_zero]
    cases (mapSize - 1).getLsbD i with
    | true => simp
    | false => simp
  rw [BitVec.add_eq_or_of_and_eq_zero _ _ apart]
  apply BitVec.eq_of_getLsbD_eq
  intro i bound
  simp only [pageOf, offsetOf, BitVec.getLsbD_or, BitVec.getLsbD_and, BitVec.getLsbD_not]
  cases (mapSize - 1).getLsbD i with
  | true => simp
  | false => simp [bound]

def Tool.Windowed (tool : Tool) (page : Word) : Prop :=
  tool.mappings = [⟨tool.gMapVaddr, page⟩]

section Windowed
variable {tool : Tool} {page : Word}

theorem Tool.Windowed.translate (windowed : tool.Windowed page) {offset : Word}
    (inside : offset.toNat < 0x1000) :
    tool.translate (tool.gMapVaddr + offset) = some (page + offset) := by
  have difference : tool.gMapVaddr + offset - tool.gMapVaddr = offset := by
    rw [BitVec.add_comm, BitVec.add_sub_cancel]
  have less : offset < mapSize := inside
  rw [Tool.translate, windowed]
  simp [difference, less]

theorem Tool.load_unmapped {vaddr : Word} {count : Nat} (nothing : tool.translate vaddr = none)
    (bytes : 0 < count) : tool.load vaddr count = .error .fault := by
  cases count with
  | zero => cases bytes
  | succ count => rw [Tool.load, nothing]

theorem Tool.store_unmapped {vaddr : Word} {count : Nat} (value : Word)
    (nothing : tool.translate vaddr = none) (bytes : 0 < count) :
    tool.store vaddr count value = .error .fault := by
  cases count with
  | zero => cases bytes
  | succ count => rw [Tool.store, nothing]

theorem next_offset {offset : Word} {count : Nat} (inside : offset.toNat + (count + 1) ≤ 0x1000) :
    (offset + 1).toNat + count ≤ 0x1000 := by
  have small : offset.toNat + (1 : Word).toNat < 2 ^ 32 := by
    rw [show (1 : Word).toNat = 1 from rfl]
    omega
  rw [BitVec.toNat_add_of_lt small, Nat.add_assoc, Nat.add_comm _ count]
  exact inside

theorem Tool.Windowed.load (windowed : tool.Windowed page) {count : Nat} {offset : Word}
    (inside : offset.toNat + count ≤ 0x1000) :
    tool.load (tool.gMapVaddr + offset) count =
      .ok (Memory.read tool.physical (page + offset) count) := by
  induction count generalizing offset with
  | zero => rfl
  | succ count ih =>
      have upper := ih (next_offset inside)
      rw [← BitVec.add_assoc, ← BitVec.add_assoc] at upper
      rw [Tool.load, windowed.translate (by omega)]
      simp only [upper]
      rfl

theorem Tool.Windowed.store (windowed : tool.Windowed page) {count : Nat} {offset : Word}
    (value : Word) (inside : offset.toNat + count ≤ 0x1000) :
    tool.store (tool.gMapVaddr + offset) count value =
      .ok { tool with
        physical := Memory.write (page + offset) count value tool.physical } := by
  induction count generalizing tool offset value with
  | zero => rfl
  | succ count ih =>
      have kept : (tool.setByte (page + offset) (value.setWidth 8)).Windowed page := windowed
      have later := ih kept (value >>> 8) (next_offset inside)
      rw [← BitVec.add_assoc, ← BitVec.add_assoc] at later
      rw [Tool.store, windowed.translate (by omega)]
      exact later

end Windowed

/-! ## The state between calls -/

structure Tool.Remembers (tool : Tool) : Prop where
  opened : tool.gFmem ≠ 0
  mapped : tool.gMapVaddr ≠ 0
  window : tool.Windowed tool.gMapPaddr

structure Tool.Fresh (tool : Tool) : Prop where
  vaddr : tool.gMapVaddr = 0
  paddr : tool.gMapPaddr = 0
  mappings : tool.mappings = []

theorem openMemFile_ok {kernel : Kernel} (succeeds : kernel.Succeeds) (tool : Tool) :
    ∃ fd, fd ≠ 0 ∧ openMemFile kernel tool = .ok { tool with gFmem := fd } := by
  have fd := succeeds.fd
  by_cases closed : tool.gFmem = 0
  · have opened : kernel.fd ≠ 0 := by omega
    exact ⟨kernel.fd, opened, by simp [openMemFile, closed, opened]⟩
  · exact ⟨tool.gFmem, closed, by simp [openMemFile, closed]⟩

theorem mapAddress_fresh {kernel : Kernel} (succeeds : kernel.Succeeds) {tool : Tool}
    (opened : tool.gFmem ≠ 0) (fresh : tool.Fresh) {address : Word} (other : pageOf address ≠ 0) :
    (mapAddress kernel address tool).Remembers ∧
      (mapAddress kernel address tool).gMapPaddr = pageOf address ∧
      (mapAddress kernel address tool).physical = tool.physical := by
  have moved : ¬ pageOf address = tool.gMapPaddr := by rwa [fresh.paddr]
  have unmapped : ¬ tool.gMapVaddr ≠ 0 := not_not_intro fresh.vaddr
  rw [mapAddress, if_neg moved, if_neg unmapped]
  refine ⟨⟨opened, succeeds.base _, ?_⟩, rfl, rfl⟩
  simp [Tool.Windowed, Tool.mmap, fresh.mappings]

theorem mapAddress_remembers {kernel : Kernel} (succeeds : kernel.Succeeds) {tool : Tool}
    (remembers : tool.Remembers) (address : Word) :
    (mapAddress kernel address tool).Remembers ∧
      (mapAddress kernel address tool).gMapPaddr = pageOf address ∧
      (mapAddress kernel address tool).physical = tool.physical := by
  by_cases same : pageOf address = tool.gMapPaddr
  · rw [mapAddress, if_pos same]
    exact ⟨remembers, same.symm, rfl⟩
  · rw [mapAddress, if_neg same, if_pos remembers.mapped]
    refine ⟨⟨remembers.opened, succeeds.base _, ?_⟩, rfl, rfl⟩
    have only : tool.mappings = [⟨tool.gMapVaddr, tool.gMapPaddr⟩] := remembers.window
    simp [Tool.Windowed, Tool.mmap, Tool.munmap, only]

theorem width_bounds {width : Int} (known : width ∈ [1, 2, 4]) :
    0 < width.toNat ∧ width.toNat ≤ 4 := by
  simp only [List.mem_cons, List.not_mem_nil, or_false] at known
  omega

theorem onWidth_eq {Value : Type} {width : Int} (known : width ∈ [1, 2, 4])
    (access : Nat → Except Stop Value) : onWidth width access = access width.toNat := by
  simp only [List.mem_cons, List.not_mem_nil, or_false] at known
  obtain rfl | rfl | rfl := known
  · rfl
  · rfl
  · rfl

theorem readm_eq {kernel : Kernel} {tool opened : Tool} {width : Int} (address : Word)
    (known : width ∈ [1, 2, 4]) (returned : openMemFile kernel tool = .ok opened) :
    readm kernel address width tool =
      (((mapAddress kernel address opened).load
        ((mapAddress kernel address opened).gMapVaddr + offsetOf address) width.toNat).map
          fun value => (value, mapAddress kernel address opened)) := by
  rw [readm, returned]
  simp only [onWidth_eq known]
  rfl

theorem writem_eq {kernel : Kernel} {tool opened : Tool} {width : Int} (address value : Word)
    (known : width ∈ [1, 2, 4]) (returned : openMemFile kernel tool = .ok opened) :
    writem kernel address width value tool =
      (mapAddress kernel address opened).store
        ((mapAddress kernel address opened).gMapVaddr + offsetOf address) width.toNat value := by
  rw [writem, returned]
  simp only [onWidth_eq known]
  rfl

theorem perform_mapped {kernel : Kernel} {tool opened mapped : Tool} {call : Call}
    (fits : call.Fits) (returned : openMemFile kernel tool = .ok opened)
    (maps : mapAddress kernel call.address opened = mapped) (remembers : mapped.Remembers)
    (page : mapped.gMapPaddr = pageOf call.address) :
    ∃ next, call.perform kernel tool = .ok ((call.onFlat mapped.physical).1, next) ∧
      next.Remembers ∧ next.gMapPaddr = pageOf call.address ∧
      next.physical = (call.onFlat mapped.physical).2 := by
  have window := remembers.window
  rw [page] at window
  cases call with
  | readm address width =>
      obtain ⟨known, inside⟩ :
        width ∈ [1, 2, 4] ∧ (offsetOf address).toNat + width.toNat ≤ 0x1000 := fits
      have loaded := window.load inside
      have read := readm_eq address known returned
      simp only [Call.address] at maps loaded
      rw [page_add_offset] at loaded
      rw [maps, loaded] at read
      refine ⟨mapped, ?_, remembers, page, rfl⟩
      rw [Call.perform, read]
      rfl
  | writem address width value =>
      obtain ⟨known, inside⟩ :
        width ∈ [1, 2, 4] ∧ (offsetOf address).toNat + width.toNat ≤ 0x1000 := fits
      have stored := window.store value inside
      have written := writem_eq address value known returned
      simp only [Call.address] at maps stored
      rw [page_add_offset] at stored
      rw [maps, stored] at written
      refine ⟨{ mapped with
          physical := Memory.write address width.toNat value mapped.physical }, ?_,
        ⟨remembers.opened, remembers.mapped, remembers.window⟩, page, rfl⟩
      rw [Call.perform, written]
      rfl

/-! ## Runs -/

section Runs
variable {kernel : Kernel} (succeeds : kernel.Succeeds)
include succeeds

theorem perform_remembers {tool : Tool} (remembers : tool.Remembers) {call : Call}
    (fits : call.Fits) :
    ∃ next, call.perform kernel tool = .ok ((call.onFlat tool.physical).1, next) ∧
      next.Remembers ∧ next.gMapPaddr = pageOf call.address ∧
      next.physical = (call.onFlat tool.physical).2 := by
  obtain ⟨fd, opened, returned⟩ := openMemFile_ok succeeds tool
  have open' : { tool with gFmem := fd }.Remembers :=
    ⟨opened, remembers.mapped, remembers.window⟩
  obtain ⟨after, page, physical⟩ := mapAddress_remembers succeeds open' call.address
  have performed := perform_mapped fits returned rfl after page
  rwa [physical] at performed

theorem perform_fresh {tool : Tool} (fresh : tool.Fresh) {call : Call}
    (fits : call.Fits) (other : pageOf call.address ≠ 0) :
    ∃ next, call.perform kernel tool = .ok ((call.onFlat tool.physical).1, next) ∧
      next.Remembers ∧ next.gMapPaddr = pageOf call.address ∧
      next.physical = (call.onFlat tool.physical).2 := by
  obtain ⟨fd, opened, returned⟩ := openMemFile_ok succeeds tool
  have fresh' : { tool with gFmem := fd }.Fresh := ⟨fresh.vaddr, fresh.paddr, fresh.mappings⟩
  obtain ⟨after, page, physical⟩ := mapAddress_fresh succeeds opened fresh' other
  have performed := perform_mapped fits returned rfl after page
  rwa [physical] at performed

/-- Page 0 is taken for mapped, and the access goes to address 0 of the program. -/
theorem perform_page_zero {tool : Tool} (fresh : tool.Fresh) {call : Call}
    (known : call.width ∈ [1, 2, 4]) (zero : pageOf call.address = 0) :
    call.perform kernel tool = .error .fault := by
  obtain ⟨fd, _, returned⟩ := openMemFile_ok succeeds tool
  generalize opened : { tool with gFmem := fd } = tool' at returned
  have same : tool'.gMapPaddr = 0 ∧ tool'.mappings = [] := by
    rw [← opened]
    exact ⟨fresh.paddr, fresh.mappings⟩
  have maps : mapAddress kernel call.address tool' = tool' := by
    rw [mapAddress, if_pos (zero.trans same.1.symm)]
  have unmapped : ∀ vaddr, tool'.translate vaddr = none := by
    intro vaddr
    rw [Tool.translate, same.2]
    rfl
  have bytes : 0 < call.width.toNat := (width_bounds known).1
  cases call with
  | readm address width =>
      simp only [Call.address, Call.width] at maps known bytes
      rw [Call.perform, readm_eq address known returned, maps,
        Tool.load_unmapped (unmapped _) bytes]
      rfl
  | writem address width value =>
      simp only [Call.address, Call.width] at maps known bytes
      rw [Call.perform, writem_eq address value known returned, maps,
        Tool.store_unmapped value (unmapped _) bytes]
      rfl

theorem flat_of_remembers {calls : List Call} {tool : Tool} (remembers : tool.Remembers)
    (fits : ∀ call ∈ calls, call.Fits) : Flat kernel calls tool tool.physical := by
  induction calls generalizing tool with
  | nil => trivial
  | cons call rest ih =>
      obtain ⟨next, performed, after, page, physical⟩ :=
        perform_remembers succeeds remembers (fits call List.mem_cons_self)
      refine ⟨_, next, performed, ?_, rfl, ?_⟩
      · rw [← page]
        exact after.window
      · rw [← physical]
        exact ih after fun call member => fits call (List.mem_cons_of_mem _ member)

end Runs

/-- From the start the tool is flat memory unless it begins with page 0. -/
theorem flat_iff_first_page {kernel : Kernel} (succeeds : kernel.Succeeds) (memory : Memory)
    (calls : List Call) (fits : ∀ call ∈ calls, call.Fits) :
    Flat kernel calls (.start memory) memory ↔
      ∀ call, calls.head? = some call → pageOf call.address ≠ 0 := by
  have fresh : (Tool.start memory).Fresh := ⟨rfl, rfl, rfl⟩
  cases calls with
  | nil =>
      refine iff_of_true trivial ?_
      intro call first
      cases first
  | cons call rest =>
      have first : call.Fits := fits call List.mem_cons_self
      constructor
      · rintro ⟨value, next, performed, -⟩ _ head zero
        cases head
        rw [perform_page_zero succeeds fresh first.1 zero] at performed
        cases performed
      · intro other
        obtain ⟨next, performed, after, page, physical⟩ :=
          perform_fresh succeeds fresh first (other call rfl)
        refine ⟨_, next, performed, ?_, rfl, ?_⟩
        · rw [← page]
          exact after.window
        · rw [show memory = (Tool.start memory).physical from rfl, ← physical]
          exact flat_of_remembers succeeds after fun call member =>
            fits call (List.mem_cons_of_mem _ member)

def plainKernel : Kernel where
  fd := 3
  base := fun _ => 0x76f00000

theorem plainKernel_succeeds : plainKernel.Succeeds :=
  ⟨by decide, fun _ => show (0x76f00000 : Word) ≠ 0 by decide⟩

theorem flat_first_then_page_zero :
    Flat plainKernel [.writem 0x020e0000 4 0x12345678, .readm 0x10 2, .readm 0x020e0002 1]
      (.start fun _ => 0) (fun _ => 0) := by
  refine (flat_iff_first_page plainKernel_succeeds _ _ ?_).mpr ?_
  · decide
  · intro call first
    cases first
    decide

theorem first_page_not_flat :
    ¬ ∀ (kernel : Kernel) (memory : Memory) (calls : List Call), kernel.Succeeds →
      (∀ call ∈ calls, call.Fits) → Flat kernel calls (.start memory) memory := by
  intro flat
  have fits : (Call.readm 0x10 4).Fits := by decide
  obtain ⟨value, next, performed, -⟩ :=
    flat plainKernel (fun _ => 0) [.readm 0x10 4] plainKernel_succeeds (by
      intro call member
      rw [List.mem_singleton.mp member]
      exact fits)
  rw [perform_page_zero plainKernel_succeeds ⟨rfl, rfl, rfl⟩ fits.1 (by decide)] at performed
  cases performed

end ImxTest.Memtool
