import ImxTest.Lib.ForLoop
import ImxTest.Memtool.CommandLine

/-!
# The window of a read or write of memory

For an address on the command line `main` maps the pages from the one that holds the
address, as many as the accesses need, and reads or writes there.  The size of the window
is computed in 32 bits.
-/

set_option autoImplicit false

namespace ImxTest.Memtool.MainWindow

open ImxTest.Lib.CString
open ImxTest.Lib.ForLoop
open ImxTest.Lib.Traced
open ImxTest.Memtool.CommandLine

/-- The globals that `main` computes the window from.  A write is to one element: the
count is taken from the arguments of a read only. -/
structure Request where
  gPaddr : Word
  gCount : Word
  gSize : Size
  gIsWrite : Bool
  single : gIsWrite = true → gCount = 1

def sizeBytes : Size → Nat
  | .byte => 1
  | .half => 2
  | .word => 4

namespace Request

variable (request : Request)

def size : Word := BitVec.ofNat 32 (sizeBytes request.gSize)

/-- `g_paddr` when it is aligned to the access. -/
def paddr : Word := request.gPaddr &&& ~~~(request.size - 1)

def alignedPaddr : Word := request.paddr &&& ~~~(4096 - 1)

def alignedSize : Word :=
  let alignedSize := request.paddr - request.alignedPaddr + request.gCount * request.size
  (alignedSize + 4096 - 1) &&& ~~~(4096 - 1)

/-- The elements that `read_mem` or `write_mem` accesses, counted from the address. -/
def elements : List Nat :=
  if request.gIsWrite then [0] else List.range request.gCount.toNat

/-- Their bytes, in physical memory. -/
def accessed : List Nat :=
  request.elements.flatMap fun i =>
    (List.range (sizeBytes request.gSize)).map fun b =>
      request.paddr.toNat + (sizeBytes request.gSize * i + b)

def Inside : Prop :=
  ∀ x ∈ request.accessed, request.alignedPaddr.toNat ≤ x ∧
    x < request.alignedPaddr.toNat + request.alignedSize.toNat

/-- From the page of the address to the end of the last access. -/
def needed : Nat :=
  request.paddr.toNat % 4096 + request.gCount.toNat * sizeBytes request.gSize

end Request

/-! ## Rounding -/

theorem offsetOf_toNat (address : Word) : (offsetOf address).toNat = address.toNat % 4096 := by
  rw [offsetOf, BitVec.toNat_and]
  exact Nat.and_two_pow_sub_one_eq_mod address.toNat 12

theorem pageOf_toNat (address : Word) :
    (pageOf address).toNat = address.toNat - address.toNat % 4096 := by
  have page : pageOf address = address - offsetOf address := by
    nth_rewrite 2 [← page_add_offset address]
    rw [BitVec.add_sub_cancel]
  have less : offsetOf address ≤ address := by
    rw [BitVec.le_def, offsetOf_toNat]
    exact Nat.mod_le _ _
  rw [page, BitVec.toNat_sub_of_le less, offsetOf_toNat]

section Window
variable (request : Request)

theorem alignedPaddr_toNat :
    request.alignedPaddr.toNat = request.paddr.toNat - request.paddr.toNat % 4096 :=
  pageOf_toNat request.paddr

theorem size_toNat : request.size.toNat = sizeBytes request.gSize := by
  rw [Request.size]
  cases request.gSize <;> rfl

theorem offset_toNat :
    (request.paddr - request.alignedPaddr).toNat = request.paddr.toNat % 4096 := by
  have less : request.alignedPaddr ≤ request.paddr := by
    rw [BitVec.le_def, alignedPaddr_toNat]
    exact Nat.sub_le _ _
  have part := Nat.mod_le request.paddr.toNat 4096
  rw [BitVec.toNat_sub_of_le less, alignedPaddr_toNat]
  omega

/-- The size of the window wraps at 2^32. -/
theorem alignedSize_toNat :
    request.alignedSize.toNat =
      (request.needed + 4095) % 2 ^ 32 - (request.needed + 4095) % 2 ^ 32 % 4096 := by
  have raised (s : Word) : (s + 4096 - 1).toNat = (s.toNat + 4095) % 2 ^ 32 := by
    rw [BitVec.sub_eq_add_neg, BitVec.add_assoc, BitVec.toNat_add]
    rfl
  have sum : (request.paddr - request.alignedPaddr + request.gCount * request.size).toNat =
      request.needed % 2 ^ 32 := by
    rw [BitVec.toNat_add, BitVec.toNat_mul, offset_toNat, size_toNat, Nat.add_mod_mod]
    rfl
  rw [show request.alignedSize = pageOf (request.paddr - request.alignedPaddr +
    request.gCount * request.size + 4096 - 1) from rfl, pageOf_toNat, raised, sum,
    Nat.mod_add_mod]

/-- The window holds what is needed as long as rounding up does not wrap. -/
theorem needed_le_alignedSize_iff :
    request.needed ≤ request.alignedSize.toNat ↔ request.needed ≤ 2 ^ 32 - 4096 := by
  rw [alignedSize_toNat]
  omega

/-- A write has one element, as its count says. -/
theorem elements_eq : request.elements = List.range request.gCount.toNat := by
  rw [Request.elements]
  split
  · rw [request.single ‹_›]
    rfl
  · rfl

theorem accessed_eq :
    request.accessed = (List.range (sizeBytes request.gSize * request.gCount.toNat)).map
      (request.paddr.toNat + ·) := by
  rw [Request.accessed, elements_eq]
  exact range_mul_flatMap _ _ (request.paddr.toNat + ·)

theorem mem_accessed (x : Nat) :
    x ∈ request.accessed ↔ request.paddr.toNat ≤ x ∧
      x < request.paddr.toNat + request.gCount.toNat * sizeBytes request.gSize := by
  rw [accessed_eq, List.mem_map, Nat.mul_comm]
  constructor
  · rintro ⟨n, member, rfl⟩
    have inside := List.mem_range.mp member
    omega
  · rintro ⟨above, below⟩
    refine ⟨x - request.paddr.toNat, List.mem_range.mpr (by omega), ?_⟩
    exact Nat.add_sub_cancel' above

/-- The last byte needs the window; no access needs none. -/
theorem needed_of_inside (inside : request.Inside) : request.needed ≤ 2 ^ 32 - 4096 := by
  have page := alignedPaddr_toNat request
  have total : request.needed =
      request.paddr.toNat % 4096 + request.gCount.toNat * sizeBytes request.gSize := rfl
  rw [← needed_le_alignedSize_iff]
  by_contra short
  have bytes : 0 < request.gCount.toNat * sizeBytes request.gSize := by
    have small : ¬ request.needed ≤ 2 ^ 32 - 4096 := by
      rwa [needed_le_alignedSize_iff] at short
    omega
  have part := Nat.mod_le request.paddr.toNat 4096
  have last := inside
    (request.paddr.toNat + request.gCount.toNat * sizeBytes request.gSize - 1)
    ((mem_accessed request _).mpr (by omega))
  omega

theorem inside_of_needed (enough : request.needed ≤ 2 ^ 32 - 4096) : request.Inside := by
  have page := alignedPaddr_toNat request
  have total : request.needed =
      request.paddr.toNat % 4096 + request.gCount.toNat * sizeBytes request.gSize := rfl
  have part := Nat.mod_le request.paddr.toNat 4096
  rw [← needed_le_alignedSize_iff] at enough
  intro x member
  have place := (mem_accessed request x).mp member
  omega

theorem request_inside_iff (request : Request) :
    request.Inside ↔ request.needed ≤ 2 ^ 32 - 4096 :=
  ⟨needed_of_inside request, inside_of_needed request⟩

end Window

def wholeMemory : Request where
  gPaddr := 0x80000000
  gCount := 0x40000000
  gSize := .word
  gIsWrite := false
  single := by decide

theorem wholeMemory_not_inside : ¬ wholeMemory.Inside := by
  have size : wholeMemory.alignedSize = 0 := by decide
  intro inside
  have first := inside 0x80000000 ((mem_accessed wholeMemory _).mpr (by decide))
  rw [size] at first
  exact absurd first (by decide)

/-! ## Where a request comes from -/

structure Request.Describes (request : Request) (globals : Globals) : Prop where
  gPaddr : request.gPaddr = globals.gPaddr
  gCount : request.gCount = globals.gCount
  gSize : request.gSize.bytes = globals.gSize
  gIsWrite : request.gIsWrite = true ↔ globals.gIsWrite ≠ 0

structure Ready (globals : Globals) : Prop where
  size : ∃ size : Size, size.bytes = globals.gSize
  single : globals.gIsWrite ≠ 0 → globals.gCount = 1

/-- Before the count is read. -/
structure Counting (globals : Globals) : Prop where
  size : ∃ size : Size, size.bytes = globals.gSize
  count : globals.gCount = 1

theorem Counting.ready {globals : Globals} (counting : Counting globals) : Ready globals :=
  ⟨counting.size, fun _ => counting.count⟩

section Prepared
variable {argv : List Text}

theorem fetch_leads {inv : Globals → Prop} (i : Nat) : Leads inv inv (fetch argv i) := by
  refine Leads.bind (fun _ => id) (Leads.note (fun _ => id) _) ?_
  intro _
  cases argv[i]? with
  | none => exact Leads.quit (fun _ => id) _
  | some text => exact Leads.pure (fun _ => id) text

theorem counting_change {update : Globals → Globals}
    (size : ∀ globals, (update globals).gSize = globals.gSize)
    (count : ∀ globals, (update globals).gCount = globals.gCount) :
    Leads Counting Counting (change update : Parser Unit) := by
  apply Leads.change
  rintro globals ⟨known, one⟩
  exact ⟨by rwa [size], by rwa [count]⟩

theorem sizeOption_counting (sizes : List Size) :
    Leads Counting Counting (sizeOption argv sizes) := by
  induction sizes with
  | nil => exact Leads.pure (fun _ => id) 1
  | cons size rest ih =>
      refine Leads.bind (fun _ => id) (fetch_leads 1) ?_
      intro arg
      apply Leads.ite
      · intro _
        have chosen : Leads Counting Counting (change fun globals =>
            { globals with gSize := size.bytes } : Parser Unit) := by
          apply Leads.change
          intro globals counting
          exact ⟨⟨size, rfl⟩, counting.count⟩
        refine Leads.bind (fun _ => id) chosen ?_
        intro _
        exact Leads.pure (fun _ => id) 2
      · intro _
        exact ih

theorem compOption_counting (cur : Nat) : Leads Counting Counting (compOption argv cur) := by
  refine Leads.bind (fun _ => id) (fetch_leads cur) ?_
  intro arg
  apply Leads.ite
  · intro _
    refine Leads.bind (fun _ => id) (counting_change (fun _ => rfl) fun _ => rfl) ?_
    intro _
    exact Leads.pure (fun _ => id) _
  · intro _
    exact Leads.pure (fun _ => id) _

theorem skipMemtool_counting (turns cur : Nat) :
    Leads Counting Counting (skipMemtool argv turns cur) := by
  induction turns generalizing cur with
  | zero => exact Leads.pure (fun _ => id) _
  | succ turns ih =>
      apply Leads.ite
      · intro _
        refine Leads.bind (fun _ => id) (fetch_leads cur) ?_
        intro arg
        apply Leads.ite
        · intro _
          refine Leads.bind (fun _ => id) (counting_change (fun _ => rfl) fun _ => rfl) ?_
          intro _
          exact ih (cur + 1)
        · intro _
          refine Leads.bind (fun _ => id) (fetch_leads cur) ?_
          intro arg
          apply Leads.ite
          · intro _
            exact ih (cur + 1)
          · intro _
            exact Leads.pure (fun _ => id) _
      · intro _
        exact Leads.pure (fun _ => id) _

/-- The count is set where the command is no write. -/
theorem numberArgument_ready (cur : Nat) : Leads Counting Ready (numberArgument argv cur) := by
  refine Leads.bind (fun _ => Counting.ready) (fetch_leads cur) ?_
  intro arg globals counting
  by_cases write : globals.gIsWrite ≠ 0
  · simp only [bind_apply, ask_apply, andThen_ok, if_pos write, change_apply, pure_apply]
    exact ⟨counting.size, fun _ => counting.count⟩
  · simp only [bind_apply, ask_apply, andThen_ok, if_neg write, change_apply, pure_apply]
    exact ⟨counting.size, fun other => absurd other write⟩

theorem ready_change {update : Globals → Globals}
    (size : ∀ globals, (update globals).gSize = globals.gSize)
    (count : ∀ globals, (update globals).gCount = globals.gCount) (code : Int) :
    Leads Counting Ready (change update >>= fun _ => (pure code : Parser Int)) := by
  refine Leads.bind (fun _ => Counting.ready) (counting_change size count) ?_
  intro _
  exact Leads.pure (fun _ => Counting.ready) code

theorem nextArgument_ready (cur : Nat) : Leads Counting Ready (nextArgument argv cur) := by
  apply Leads.ite
  · intro _
    exact Leads.pure (fun _ => Counting.ready) _
  · intro _
    refine Leads.bind (fun _ => Counting.ready) (fetch_leads cur) ?_
    intro arg
    apply Leads.ite
    · intro _
      refine Leads.bind (fun _ => Counting.ready) (counting_change (fun _ => rfl) fun _ => rfl) ?_
      intro _
      refine Leads.bind (fun _ => Counting.ready) (fetch_leads cur) ?_
      intro arg
      apply Leads.ite
      · intro _
        apply ready_change <;> intro _ <;> rfl
      · intro _
        apply Leads.ite
        · intro _
          exact Leads.pure (fun _ => Counting.ready) _
        · intro _
          refine Leads.bind (fun _ => Counting.ready) (fetch_leads (cur + 1)) ?_
          intro arg
          apply ready_change <;> intro _ <;> rfl
    · intro _
      exact numberArgument_ready cur

theorem afterAddress_ready (cur : Nat) : Leads Counting Ready (afterAddress argv cur) := by
  refine Leads.bind (fun _ => Counting.ready) (fetch_leads cur) ?_
  intro arg
  cases behind '=' arg with
  | none => exact nextArgument_ready (cur + 1)
  | some value =>
      refine Leads.bind (fun _ => Counting.ready) (counting_change (fun _ => rfl) fun _ => rfl) ?_
      intro _
      apply Leads.ite
      · intro _
        apply ready_change <;> intro _ <;> rfl
      · intro _
        exact nextArgument_ready (cur + 1)

theorem extendCommand_size (arg : Text) (globals : Globals) :
    (extendCommand arg globals).gSize = globals.gSize ∧
      (extendCommand arg globals).gCount = globals.gCount := by
  unfold extendCommand assignValue
  dsimp only
  split
  · exact ⟨rfl, rfl⟩
  · split <;> split <;> exact ⟨rfl, rfl⟩

theorem command_ready (cur : Nat) : Leads Counting Ready (command argv cur) := by
  refine Leads.bind (fun _ => Counting.ready) (Leads.ask (fun _ => id) _) ?_
  intro gComp
  apply Leads.ite
  · intro _
    exact Leads.pure (fun _ => Counting.ready) _
  · intro _
    refine Leads.bind (fun _ => Counting.ready) (fetch_leads cur) ?_
    intro arg
    apply Leads.ite
    · intro _
      exact ready_change (fun globals => (extendCommand_size arg globals).1)
        (fun globals => (extendCommand_size arg globals).2) 0
    · intro _
      refine Leads.bind (fun _ => Counting.ready) (Leads.ask (fun _ => id) _) ?_
      intro isReg
      apply Leads.ite
      · intro _
        refine Leads.bind (fun _ => Counting.ready) (fetch_leads cur) ?_
        intro arg
        refine Leads.bind (fun _ => Counting.ready) (counting_change (fun _ => rfl) fun _ => rfl) ?_
        intro _
        apply Leads.ite
        · intro _
          exact Leads.pure (fun _ => Counting.ready) _
        · intro _
          exact afterAddress_ready cur
      · intro _
        exact afterAddress_ready cur

theorem parseCmdline_ready (argv : List Text) : Leads Counting Ready (parseCmdline argv) := by
  apply Leads.ite
  · intro _
    exact Leads.pure (fun _ => Counting.ready) _
  · intro _
    refine Leads.bind (fun _ => Counting.ready) (sizeOption_counting _) ?_
    intro cur
    refine Leads.bind (fun _ => Counting.ready) (compOption_counting cur) ?_
    intro cur
    refine Leads.bind (fun _ => Counting.ready) (skipMemtool_counting _ cur) ?_
    exact command_ready

end Prepared

/-- What `main` gets from `parse_cmdline` is a request, whatever the arguments are. -/
theorem parseCmdline_request (argv : List Text) :
    ∃ request : Request, request.Describes (parseCmdline argv .start).state := by
  have ready := parseCmdline_ready argv .start ⟨⟨.word, rfl⟩, rfl⟩
  obtain ⟨size, same⟩ := ready.size
  have single := ready.single
  refine ⟨⟨_, _, size, decide ((parseCmdline argv .start).state.gIsWrite ≠ 0), ?_⟩,
    rfl, rfl, same, ?_⟩
  · intro write
    exact single (of_decide_eq_true write)
  · exact decide_eq_true_iff

/-- For every command line the accesses stay in the window just when its size does not wrap. -/
theorem parseCmdline_inside_iff (argv : List Text) :
    ∃ request : Request, request.Describes (parseCmdline argv .start).state ∧
      (request.Inside ↔ request.needed ≤ 2 ^ 32 - 4096) := by
  obtain ⟨request, describes⟩ := parseCmdline_request argv
  exact ⟨request, describes, needed_of_inside request, inside_of_needed request⟩

end ImxTest.Memtool.MainWindow
