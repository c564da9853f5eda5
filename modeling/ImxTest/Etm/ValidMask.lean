import ImxTest.Lib.BitGroups
import ImxTest.Etm.Lockstep

/-!
# Which bits of the address are known

`iaddr_valid` marks the bits of `iaddr` that the trace has told so far.  A branch
packet of fewer than five bytes brings the low bits of the address above those
that the instruction set leaves zero, so the mask should move up with the address.
In ARM mode it moves one place further, and the bit above those of the packet is
marked although it is still the old one.
-/

set_option autoImplicit false

namespace ImxTest.Etm

open ImxTest.Lib.TwoRuns ImxTest.Lib.BitGroups

/-- How many address bits a branch packet of `count` bytes brings, if its last byte
does not announce another. -/
def packetWidth (altBranch : Bool) (count : Nat) : Nat :=
  if altBranch && 1 < count then 7 * count - 2 else 7 * count - 1

namespace Mode

def maskShift (mode : Mode) : Nat :=
  mode.shift ||| ((1 <<< mode.shift) - 1)

theorem maskShift_eq (mode : Mode) :
    mode.maskShift = if mode = .arm then 3 else mode.shift := by
  cases mode with
  | jazelle => rfl
  | thumb => rfl
  | arm => rfl

end Mode

def armMask (altBranch : Bool) (count : Nat) : Word :=
  BitVec.ofNat 32 (2 ^ packetWidth altBranch count - 1) <<< 3

/-- Outside ARM mode there is nothing to ask for.  In ARM mode every packet of
fewer than five bytes either leaves the mask as it is or marks a bit above its own
that was marked before. -/
def Covered (altBranch : Bool) (mode : Mode) (valid : Word) : Prop :=
  mode = .arm → ∀ count ∈ [1, 2, 3, 4],
    armMask altBranch count ≤ valid ∨
      valid.getLsbD (packetWidth altBranch count + 2) = true

/-! ## The groups of a packet in two runs -/

/-- Two addresses into which the same groups have been put: below `width` they are
equal, above they are what they were. -/
structure Grouped (width : Nat) (start start' addr addr' validMask : Word) : Prop where
  mask : IsLow width validMask
  below : ∀ i, i < width → i < 32 → addr.getLsbD i = addr'.getLsbD i
  above : ∀ i, width ≤ i → i < 32 →
    addr.getLsbD i = start.getLsbD i ∧ addr'.getLsbD i = start'.getLsbD i

theorem Grouped.put {width bits : Nat} {start start' addr addr' validMask : Word}
    (grouped : Grouped width start start' addr addr' validMask) {mask : Byte} (data : Byte)
    (low : IsLow bits mask) (fits : bits ≤ 8) :
    Grouped (width + bits) start start'
      ((addr &&& ~~~(mask.setWidth 32 <<< width)) ||| ((data &&& mask).setWidth 32 <<< width))
      ((addr' &&& ~~~(mask.setWidth 32 <<< width)) ||| ((data &&& mask).setWidth 32 <<< width))
      (validMask ^^^ (mask.setWidth 32 <<< width)) := by
  refine ⟨grouped.mask.xor_group low fits, ?_, ?_⟩
  · intro i inside bound
    rw [getLsbD_putGroup low fits bound, getLsbD_putGroup low fits bound]
    split
    · rfl
    · exact grouped.below i (by omega) bound
  · intro i outside bound
    rw [getLsbD_putGroup low fits bound, getLsbD_putGroup low fits bound,
      if_neg (by omega), if_neg (by omega)]
    exact grouped.above i (by omega) bound

theorem grouped_first (start start' : Word) (data : Byte) :
    Grouped 6 start start'
      ((start &&& ~~~0x3f#32) ||| ((data >>> 1) &&& 0x3f).setWidth 32)
      ((start' &&& ~~~0x3f#32) ||| ((data >>> 1) &&& 0x3f).setWidth 32) 0x3f := by
  have nothing : Grouped 0 start start' start start' 0 := by
    refine ⟨?_, ?_, ?_⟩
    · intro i bound
      simp
    · intro i inside
      omega
    · intro i _ _
      exact ⟨rfl, rfl⟩
  have first := nothing.put (data >>> 1) isLow_0x3f (by decide)
  simpa using first

/-! ## What is known of two addresses -/

/-- Where the two runs stand that began with `mode` and `valid`: either they have
met, or they are still in the first mode, nothing that was known is lost, and the
mask has not become smaller. -/
structure Known (mode : Mode) (valid : Word) (mode' : Mode) (mask a b : Word) : Prop where
  agree : ∀ i, mask.getLsbD i = true → a.getLsbD i = b.getLsbD i
  past : a = b ∨ (mode' = mode ∧ valid ≤ mask ∧
    ∀ i, valid.getLsbD i = true → a.getLsbD i = b.getLsbD i)

def raiseMask (mask new : Word) : Word :=
  if mask < new then new else mask

theorem le_raiseMask (mask new : Word) : mask ≤ raiseMask mask new := by
  unfold raiseMask
  split
  · next less => exact BitVec.le_of_lt less
  · exact BitVec.le_refl mask

section ShortPacket
variable {altBranch : Bool} {mode mode' : Mode} {valid mask a b addr addr' groupMask : Word}
variable {width : Nat}

/-- After the groups of a packet the addresses agree where the packet reaches and
where they agreed before. -/
theorem Grouped.agree_shifted {shift : Nat}
    (grouped : Grouped width (a >>> shift) (b >>> shift) addr addr' groupMask) {i : Nat}
    (known : i < width + shift ∨ a.getLsbD i = b.getLsbD i) :
    (addr <<< shift).getLsbD i = (addr' <<< shift).getLsbD i := by
  rw [BitVec.getLsbD_shiftLeft, BitVec.getLsbD_shiftLeft]
  by_cases bound : i < 32
  · by_cases low : i < shift
    · simp [low]
    · by_cases inside : i - shift < width
      · rw [grouped.below (i - shift) inside (by omega)]
      · obtain ⟨left, right⟩ := grouped.above (i - shift) (by omega) (by omega)
        have old : a.getLsbD i = b.getLsbD i := by
          rcases known with reached | old
          · omega
          · exact old
        rw [left, right, BitVec.getLsbD_ushiftRight, BitVec.getLsbD_ushiftRight,
          Nat.add_sub_cancel' (by omega), old]
  · simp [bound]

theorem getLsbD_shifted_mask (low : IsLow width groupMask) {shift i : Nat}
    (set : (groupMask <<< shift).getLsbD i = true) : i < width + shift := by
  rw [BitVec.getLsbD_shiftLeft] at set
  simp only [Bool.and_eq_true, decide_eq_true_eq, Bool.not_eq_true', decide_eq_false_iff_not]
    at set
  obtain ⟨⟨bound, above⟩, inMask⟩ := set
  rw [low (i - shift) (by omega)] at inMask
  have inside := of_decide_eq_true inMask
  omega

theorem Known.met (same : a = b) : Known mode valid mode' mask a b :=
  ⟨fun _ _ => by rw [same], .inl same⟩

theorem Known.shortPacket {count : Nat} (covered : Covered altBranch mode valid)
    (short : count ∈ [1, 2, 3, 4]) (known : Known mode valid mode' mask a b)
    (grouped : Grouped (packetWidth altBranch count) (a >>> mode'.shift) (b >>> mode'.shift)
      addr addr' groupMask) :
    Known mode valid mode' (raiseMask mask (groupMask <<< mode'.maskShift))
      (addr <<< mode'.shift) (addr' <<< mode'.shift) := by
  rcases known.past with met | ⟨same, notSmaller, kept⟩
  · apply Known.met
    apply BitVec.eq_of_getLsbD_eq
    intro i _
    exact grouped.agree_shifted (.inr (by rw [met]))
  refine ⟨?_, .inr ⟨same, BitVec.le_trans notSmaller (le_raiseMask _ _), ?_⟩⟩
  · intro i set
    unfold raiseMask at set
    split at set
    · next raised =>
        have inside := getLsbD_shifted_mask grouped.mask set
        rw [Mode.maskShift_eq] at inside raised
        by_cases arm : mode' = .arm
        · subst arm
          rw [if_pos rfl] at inside raised
          by_cases reached : i < packetWidth altBranch count + 2
          · exact grouped.agree_shifted (.inl reached)
          · -- The one bit that the packet does not bring.
            obtain rfl : i = packetWidth altBranch count + 2 := by omega
            rw [grouped.mask.eq_ofNat] at raised
            rcases covered same.symm count short with enough | marked
            · exact absurd raised (BitVec.not_lt.mpr (BitVec.le_trans enough notSmaller))
            · exact grouped.agree_shifted (.inr (kept _ marked))
        · rw [if_neg arm] at inside
          exact grouped.agree_shifted (.inl inside)
    · exact grouped.agree_shifted (.inr (known.agree i set))
  · intro i set
    exact grouped.agree_shifted (.inr (kept i set))

end ShortPacket

/-! ## Two states that differ in the address -/

/-- The state without the address, the best guess and the log. -/
def State.blind (state : State) : State :=
  { state with iaddr := 0, pc := 0, log := [] }

/-- Two states that differ in the addresses only, which `holds` relates. -/
def Seen (holds : Mode → Word → Word → Word → Prop) (s t : State) : Prop :=
  s.blind = t.blind ∧ holds s.mode s.iaddrValid s.iaddr t.iaddr

section Seen
variable {config : Config} {holds : Mode → Word → Word → Word → Prop}

theorem Seen.data {s t : State} (seen : Seen holds s t) : s.data = t.data :=
  State.field_eq State.blind State.data (fun _ => rfl) seen.1

theorem Seen.mode {s t : State} (seen : Seen holds s t) : s.mode = t.mode :=
  State.field_eq State.blind State.mode (fun _ => rfl) seen.1

theorem Seen.iaddrValid {s t : State} (seen : Seen holds s t) : s.iaddrValid = t.iaddrValid :=
  State.field_eq State.blind State.iaddrValid (fun _ => rfl) seen.1

/-- The address and what is known of it stay as they are. -/
theorem Seen.of_untouched (change : State → State)
    (alone : ∀ state, (change state).blind = (change state.blind).blind)
    (mode : ∀ state, (change state).mode = state.mode)
    (valid : ∀ state, (change state).iaddrValid = state.iaddrValid)
    (iaddr : ∀ state, (change state).iaddr = state.iaddr) {s t : State}
    (seen : Seen holds s t) : Seen holds (change s) (change t) := by
  refine ⟨State.view_eq State.blind alone seen.1, ?_⟩
  rw [mode s, valid s, iaddr s, iaddr t]
  exact seen.2

theorem seen_printInstruction (execute : Bool) {s t : State} (seen : Seen holds s t) :
    Seen holds (s.printInstruction config execute) (t.printInstruction config execute) :=
  seen.of_untouched (State.printInstruction config execute)
    (fun _ => rfl) (fun _ => rfl) (fun _ => rfl) (fun _ => rfl)

/-- The byte read is the last one of both states. -/
theorem seen_getByte :
    Sim (fun _ => True) (Seen holds) getByte getByte
      (fun ch ch' s t => ch = ch' ∧ Seen holds s t ∧ s.data = ch) := by
  rintro s t seen
  have useFormatter := State.field_eq State.blind State.useFormatter (fun _ => rfl) seen.1
  have formatter := State.field_eq State.blind State.formatter (fun _ => rfl) seen.1
  have input := State.field_eq State.blind State.input (fun _ => rfl) seen.1
  unfold getByte
  rw [useFormatter, formatter, input]
  cases takeByte t.useFormatter t.formatter t.input with
  | none => trivial
  | some found =>
      obtain ⟨ch, formatter', input'⟩ := found
      refine ⟨ch, _, rfl, rfl, ?_, rfl⟩
      exact seen.of_untouched (fun state => (state.advance formatter' input').receive ch)
        (fun _ => rfl) (fun _ => rfl) (fun _ => rfl) (fun _ => rfl)

end Seen

/-! ## A branch packet in two runs -/

/-- How many address bits have come with the first `count` bytes, of which `data` is
the last. -/
def widthSoFar (altBranch : Bool) (count : Nat) (data : Byte) : Nat :=
  if data &&& 0x80 ≠ 0 then 7 * count - 1 else packetWidth altBranch count

/-- What the loop of `get_branch_addr` leaves in both runs. -/
structure GroupsRead (config : Config) (start start' : Word) (groups groups' : Nat × Word × Word)
    (data : Byte) : Prop where
  count : groups.1 = groups'.1
  mask : groups.2.2 = groups'.2.2
  range : 1 ≤ groups.1 ∧ groups.1 ≤ 5
  ended : groups.1 = 5 ∨ data &&& 0x80 = 0
  grouped : Grouped (widthSoFar config.altBranch groups.1 data) start start'
    groups.2.1 groups'.2.1 groups.2.2

theorem grouped_next {altBranch : Bool} {count : Nat} (positive : 1 ≤ count)
    {start start' addr addr' validMask : Word} (data : Byte)
    (grouped : Grouped (7 * count - 1) start start' addr addr' validMask) :
    let mask : Byte := if altBranch && data &&& 0x80 == 0 then 0x3f else 0x7f
    let shifted : Word := mask.setWidth 32 <<< (7 * count - 1)
    let group : Word := (data &&& mask).setWidth 32 <<< (7 * count - 1)
    Grouped (widthSoFar altBranch (count + 1) data) start start'
      ((addr &&& ~~~shifted) ||| group) ((addr' &&& ~~~shifted) ||| group)
      (validMask ^^^ shifted) := by
  intro mask shifted group
  by_cases short : (altBranch && data &&& 0x80 == 0) = true
  · have width : widthSoFar altBranch (count + 1) data = 7 * count - 1 + 6 := by
      simp only [Bool.and_eq_true, beq_iff_eq] at short
      have several : (altBranch && decide (1 < count + 1)) = true := by
        rw [short.1, Bool.true_and]
        exact decide_eq_true (by omega)
      rw [widthSoFar, if_neg (not_not.mpr short.2), packetWidth, if_pos several]
      omega
    have small : mask = 0x3f := if_pos short
    rw [width]
    exact grouped.put data (by rw [small]; exact isLow_0x3f) (by decide)
  · have width : widthSoFar altBranch (count + 1) data = 7 * count - 1 + 7 := by
      simp only [Bool.and_eq_true, beq_iff_eq, not_and] at short
      rw [widthSoFar, packetWidth]
      split
      · omega
      · next last =>
          rw [if_neg]
          · omega
          · simp only [Bool.and_eq_true, not_and]
            intro alt
            exact absurd (short alt) last
    have large : mask = 0x7f := if_neg short
    rw [width]
    exact grouped.put data (by rw [large]; exact isLow_0x7f) (by decide)

theorem sim_branchGroups {config : Config} {holds : Mode → Word → Word → Word → Prop}
    {start start' : Word} (left count : Nat) (addr addr' validMask : Word)
    (passes : left + count = 5) (positive : 1 ≤ count) :
    Sim (fun _ => True)
      (fun s t => Seen holds s t ∧ Grouped (widthSoFar config.altBranch count s.data)
        start start' addr addr' validMask)
      (branchGroups config left count addr validMask)
      (branchGroups config left count addr' validMask)
      (fun groups groups' s t =>
        Seen holds s t ∧ GroupsRead config start start' groups groups' s.data) := by
  induction left generalizing count addr addr' validMask with
  | zero =>
      refine Sim.pure ?_
      rintro s t ⟨seen, grouped⟩
      exact ⟨seen, rfl, rfl, ⟨positive, by omega⟩, .inl (by omega), grouped⟩
  | succ left ih =>
      rintro s t ⟨seen, grouped⟩
      rw [branchGroups, branchGroups, read_bind, read_bind, ← seen.data]
      by_cases continued : s.data &&& 0x80 ≠ 0
      · rw [if_pos continued, if_pos continued]
        rw [widthSoFar, if_pos continued] at grouped
        refine seen_getByte.bind ?_ s t seen
        rintro data _ s' t' ⟨rfl, seen', last⟩
        refine ih (count + 1) _ _ _ (by omega) (by omega) s' t' ⟨seen', ?_⟩
        rw [last]
        exact grouped_next positive data grouped
      · rw [if_neg continued, if_neg continued]
        refine ⟨_, t, rfl, seen, rfl, rfl, ⟨positive, by omega⟩, .inr ?_, grouped⟩
        exact not_not.mp continued

theorem GroupsRead.addr_eq {config : Config} {start start' : Word}
    {groups groups' : Nat × Word × Word} {data : Byte}
    (read : GroupsRead config start start' groups groups' data) (five : groups.1 = 5) :
    groups.2.1 = groups'.2.1 := by
  have wide : 32 ≤ widthSoFar config.altBranch groups.1 data := by
    rw [five, widthSoFar, packetWidth]
    split
    · decide
    · split
      · decide
      · decide
  apply BitVec.eq_of_getLsbD_eq
  intro i bound
  exact read.grouped.below i (by omega) bound

theorem GroupsRead.short {config : Config} {start start' : Word}
    {groups groups' : Nat × Word × Word} {data : Byte}
    (read : GroupsRead config start start' groups groups' data) (notFive : groups.1 ≠ 5) :
    groups.1 ∈ [1, 2, 3, 4] ∧
      Grouped (packetWidth config.altBranch groups.1) start start'
        groups.2.1 groups'.2.1 groups.2.2 := by
  have range := read.range
  have last := read.ended.resolve_left notFive
  have grouped := read.grouped
  rw [widthSoFar, if_neg (not_not.mpr last)] at grouped
  refine ⟨?_, grouped⟩
  simp only [List.mem_cons, List.not_mem_nil, or_false]
  omega

theorem seen_branchTo {before : Mode → Word → Word → Word → Prop}
    {after : Mode → Word → Word → Word → Prop} {s t : State} (seen : Seen before s t)
    (addr addr' validMask : Word)
    (known : after s.mode (raiseMask s.iaddrValid (validMask <<< s.mode.maskShift))
      (addr <<< s.mode.shift) (addr' <<< s.mode.shift)) :
    Seen after (s.branchTo addr validMask) (t.branchTo addr' validMask) := by
  have shown : ∀ (state : State) (addr : Word), (state.branchTo addr validMask).blind =
      (state.blind.branchTo 0 validMask).blind := fun _ _ => rfl
  refine ⟨by rw [shown s, shown t, seen.1], ?_⟩
  have target : (t.branchTo addr' validMask).iaddr = addr' <<< s.mode.shift := by
    rw [seen.mode]
    rfl
  rw [target]
  exact known

section Branch
variable {config : Config} {mode : Mode} {valid : Word}

theorem sim_finishBranch (covered : Covered config.altBranch mode valid) {start start' : Word}
    {groups groups' : Nat × Word × Word} :
    Sim (fun _ => True)
      (fun s t => Seen (fun mode' mask a b => Known mode valid mode' mask a b ∧
          a >>> mode'.shift = start ∧ b >>> mode'.shift = start') s t ∧
        GroupsRead config start start' groups groups' s.data)
      (finishBranch config groups.1 groups.2.1 groups.2.2)
      (finishBranch config groups'.1 groups'.2.1 groups'.2.2)
      (Same (Seen (Known mode valid))) := by
  rintro s t ⟨seen, read⟩
  rw [← read.count, ← read.mask, finishBranch, finishBranch, read_bind, read_bind, ← seen.data]
  refine Sim.bind (keeps_onlyIf (keeps_update (seen_printInstruction true))) ?_ s t seen
  rintro _ _ s' t' ⟨_, seen'⟩
  by_cases five : groups.1 = 5
  · have taken : (groups.1 == 5) = true := by simp [five]
    have switched : Seen (fun _ _ _ _ => True) (s'.setMode (modeOf s.data))
        (t'.setMode (modeOf s.data)) :=
      ⟨State.view_eq State.blind (fun _ => rfl) seen'.1, trivial⟩
    rw [taken]
    refine ⟨_, _, rfl, rfl, seen_branchTo switched _ _ _ ?_⟩
    rw [read.addr_eq five]
    exact Known.met rfl
  · have skipped : (groups.1 == 5) = false := by simp [five]
    obtain ⟨short, grouped⟩ := read.short five
    obtain ⟨known, rfl, rfl⟩ := seen'.2
    rw [skipped]
    exact ⟨_, _, rfl, rfl, seen_branchTo seen' _ _ _ (known.shortPacket covered short grouped)⟩

theorem keeps_getBranchAddr_known (covered : Covered config.altBranch mode valid) :
    Keeps (fun _ => True) (Seen (Known mode valid)) (getBranchAddr config) := by
  intro s t seen
  rw [getBranchAddr, read_bind, read_bind, read_bind, read_bind, ← seen.data]
  have within : Seen (fun mode' mask a b => Known mode valid mode' mask a b ∧
      a >>> mode'.shift = s.iaddr >>> s.mode.shift ∧
      b >>> mode'.shift = t.iaddr >>> t.mode.shift) s t := by
    refine ⟨seen.1, seen.2, rfl, ?_⟩
    rw [seen.mode]
  have width : widthSoFar config.altBranch 1 s.data = 6 := by
    simp [widthSoFar, packetWidth]
  have first := grouped_first (s.iaddr >>> s.mode.shift) (t.iaddr >>> t.mode.shift) s.data
  refine Sim.bind (sim_branchGroups 4 1 _ _ _ rfl (by decide)) ?_ s t
    ⟨within, by rw [width]; exact first⟩
  intro groups groups'
  exact sim_finishBranch covered

theorem lockstep_known (covered : Covered config.altBranch mode valid) :
    Lockstep config (fun _ => True) (Seen (Known mode valid)) where
  getByte := seen_getByte.weaken (fun _ _ seen => seen)
    (fun _ _ _ _ read => ⟨read.1, read.2.1⟩)
  data := fun seen => seen.data
  timestamp := fun seen => State.field_eq State.blind State.timestamp (fun _ => rfl) seen.1
  printInstruction := fun execute _ _ seen => seen_printInstruction execute seen
  wait := fun count _ _ seen => seen.of_untouched (State.wait count)
    (fun _ => rfl) (fun _ => rfl) (fun _ => rfl) (fun _ => rfl)
  print := fun _ _ _ _ seen => ⟨seen.1, seen.2⟩
  resync := fun seen => seen.of_untouched State.resync
    (fun _ => rfl) (fun _ => rfl) (fun _ => rfl) (fun _ => rfl)
  setTimestamp := fun new _ _ seen => seen.of_untouched (State.setTimestamp new)
    (fun _ => rfl) (fun _ => rfl) (fun _ => rfl) (fun _ => rfl)
  setDaddrGroup := fun i data _ _ seen => seen.of_untouched (State.setDaddrGroup i data)
    (fun _ => rfl) (fun _ => rfl) (fun _ => rfl) (fun _ => rfl)
  updateAddr := fun _ _ _ _ seen =>
    ⟨State.view_eq State.blind (fun _ => rfl) seen.1, Known.met rfl⟩
  getBranchAddr := keeps_getBranchAddr_known covered

end Branch

/-! ## A packet that is not covered -/

/-- A byte and those that follow it in a branch packet: bit 7 announces another. -/
def Continues : Byte → List Byte → Prop
  | data, [] => data &&& 0x80 = 0
  | data, next :: rest => data &&& 0x80 ≠ 0 ∧ Continues next rest

section Run
variable {config : Config}

/-- A branch packet is read to its end, and only the last byte, `sync`, the log and
the input change. -/
theorem branchGroups_returns (bytes : List Byte) {left count : Nat} (addr validMask : Word)
    {state : State} {rest : List Byte} (continues : Continues state.data bytes)
    (room : bytes.length ≤ left) (plain : state.useFormatter = false)
    (input : state.input = bytes ++ rest) :
    ∃ addr' mask' final,
      branchGroups config left count addr validMask state =
        .ok (count + bytes.length, addr', mask') final ∧
      final.input = rest ∧ final.useFormatter = false ∧
      final.data = (bytes.getLast?).getD state.data ∧ final.mode = state.mode ∧
      final.iaddrValid = state.iaddrValid ∧ final.iaddr = state.iaddr := by
  induction bytes generalizing left count addr validMask state with
  | nil =>
      refine ⟨addr, validMask, state, ?_, input, plain, rfl, rfl, rfl, rfl⟩
      cases left with
      | zero => rfl
      | succ left =>
          have last : state.data &&& 0x80 = 0 := continues
          rw [branchGroups, read_bind, if_neg (not_not.mpr last)]
          rfl
  | cons next bytes ih =>
      cases left with
      | zero => simp at room
      | succ left =>
          obtain ⟨more, continues⟩ := continues
          rw [branchGroups, read_bind, if_pos more, bind_of_ok (getByte_plain plain input)]
          obtain ⟨addr', mask', final, run, input', plain', data, mode, valid, iaddr⟩ :=
            @ih left (count + 1) _ _
              ((state.advance state.formatter (bytes ++ rest)).receive next)
              continues (by simpa using room) plain rfl
          refine ⟨addr', mask', final, ?_, input', plain', ?_, mode, valid, iaddr⟩
          · rw [List.length_cons, Nat.add_comm bytes.length, ← Nat.add_assoc]
            exact run
          · rw [data, List.getLast?_cons]
            rfl

theorem finishBranch_short {count : Nat} (short : count ≠ 5) {state : State}
    (noException : state.data &&& 0x40 = 0) (addr validMask : Word) :
    finishBranch config count addr validMask state =
      .ok false ((if config.programFlowOnly then state.printInstruction config true
        else state).branchTo addr validMask) := by
  have noReturn : ((count == 5 || config.altBranch && decide (1 < count)) &&
      state.data &&& 0x40 != 0) = false := by
    rw [noException]
    simp
  have notFive : (count == 5) = false := by simp [short]
  rw [finishBranch, read_bind, noReturn, notFive]
  cases config.programFlowOnly with
  | true => rfl
  | false => rfl

/-- The groups of such a packet leave the bits above its own. -/
theorem branchGroups_short {bytes rest : List Byte} {state : State}
    (continues : Continues state.data bytes) (few : bytes.length ≤ 3)
    (plain : state.useFormatter = false) (input : state.input = bytes ++ rest) :
    ∃ addr final,
      branchGroups config 4 1
        ((state.iaddr >>> state.mode.shift &&& ~~~0x3f#32) |||
          ((state.data >>> 1) &&& 0x3f).setWidth 32) 0x3f state =
        .ok (1 + bytes.length, addr,
          BitVec.ofNat 32 (2 ^ packetWidth config.altBranch (1 + bytes.length) - 1)) final ∧
      final.input = rest ∧ final.useFormatter = false ∧
      final.data = (bytes.getLast?).getD state.data ∧ final.mode = state.mode ∧
      final.iaddrValid = state.iaddrValid ∧
      ∀ i, packetWidth config.altBranch (1 + bytes.length) ≤ i → i < 32 →
        addr.getLsbD i = (state.iaddr >>> state.mode.shift).getLsbD i := by
  obtain ⟨addr, mask, final, run, input', plain', data, mode, valid, _⟩ :=
    @branchGroups_returns config bytes 4 1
      ((state.iaddr >>> state.mode.shift &&& ~~~0x3f#32) |||
        ((state.data >>> 1) &&& 0x3f).setWidth 32) 0x3f
      state rest continues (by omega) plain input
  -- The comparison of two runs, both of which are this one.
  have seen : Seen (fun _ _ _ _ => True) state state := ⟨rfl, trivial⟩
  have width : widthSoFar config.altBranch 1 state.data = 6 := by
    simp [widthSoFar, packetWidth]
  have first := grouped_first (state.iaddr >>> state.mode.shift)
    (state.iaddr >>> state.mode.shift) state.data
  obtain ⟨groups', t', _, _, read⟩ :=
    (sim_branchGroups 4 1 _ _ _ rfl (by decide)).returns ⟨seen, by rw [width]; exact first⟩ run
  obtain ⟨_, grouped⟩ := read.short (by omega)
  have low : mask = _ := grouped.mask.eq_ofNat
  rw [low] at run
  exact ⟨addr, final, run, input', plain', data, mode, valid,
    fun i above bound => (grouped.above i above bound).1⟩

theorem getBranchAddr_short {bytes rest : List Byte} {state : State}
    (continues : Continues state.data bytes) (few : bytes.length ≤ 3)
    (plain : state.useFormatter = false) (input : state.input = bytes ++ rest)
    (noException : (bytes.getLast?).getD state.data &&& 0x40 = 0) :
    ∃ final, getBranchAddr config state = .ok false final ∧ final.input = rest ∧
      final.useFormatter = false ∧
      final.iaddrValid = raiseMask state.iaddrValid
        (BitVec.ofNat 32 (2 ^ packetWidth config.altBranch (1 + bytes.length) - 1) <<<
          state.mode.maskShift) ∧
      ∀ i, packetWidth config.altBranch (1 + bytes.length) + state.mode.shift ≤ i → i < 32 →
        final.iaddr.getLsbD i = state.iaddr.getLsbD i := by
  obtain ⟨addr, middle, run, input', plain', data, mode, valid, above⟩ :=
    @branchGroups_short config bytes rest state continues few plain input
  have finish := @finishBranch_short config (1 + bytes.length) (by omega) middle
    (by rw [data]; exact noException) addr
    (BitVec.ofNat 32 (2 ^ packetWidth config.altBranch (1 + bytes.length) - 1))
  have returned := bind_of_ok run fun groups =>
    finishBranch config groups.1 groups.2.1 groups.2.2
  rw [finish] at returned
  have kept : ∀ {Value : Type} (field : State → Value),
      (∀ state : State, field (state.printInstruction config true) = field state) →
      field (if config.programFlowOnly then middle.printInstruction config true else middle) =
        field middle := by
    intro Value field untouched
    split
    · exact untouched middle
    · rfl
  have sameMode := (kept State.mode fun _ => rfl).trans mode
  have sameValid := (kept State.iaddrValid fun _ => rfl).trans valid
  refine ⟨_, returned, (kept State.input fun _ => rfl).trans input',
    (kept State.useFormatter fun _ => rfl).trans plain', ?_, ?_⟩
  · have raised : ∀ (state : State) (mask : Word), (state.branchTo addr mask).iaddrValid =
        raiseMask state.iaddrValid (mask <<< state.mode.maskShift) := fun _ _ => rfl
    rw [raised, sameValid, sameMode]
  · intro i high bound
    have moved : ∀ (state : State) (mask : Word), (state.branchTo addr mask).iaddr =
        addr <<< state.mode.shift := fun _ _ => rfl
    have notLow : ¬ i < state.mode.shift := by omega
    rw [moved, sameMode, BitVec.getLsbD_shiftLeft]
    simp only [bound, notLow, decide_true, decide_false, Bool.not_false, Bool.and_true,
      Bool.true_and]
    rw [above _ (by omega) (by omega), BitVec.getLsbD_ushiftRight,
      Nat.add_sub_cancel' (by omega)]

theorem printCount_returns (count : Word) (state : State) :
    ∃ final, printCount config count state = .ok 0 final ∧
      final.iaddr = state.iaddr ∧ final.iaddrValid = state.iaddrValid := by
  rw [printCount]
  cases decide (config.longWait < count) with
  | true => exact ⟨_, rfl, rfl, rfl⟩
  | false => exact ⟨_, rfl, rfl, rfl⟩

theorem thenCycleCount_returns {packet : Decode Int} {state middle : State} {rest : List Byte}
    (run : packet state = .ok 0 middle) (plain : middle.useFormatter = false)
    (input : middle.input = 0x00 :: rest) :
    ∃ final, thenCycleCount config packet state = .ok 0 final ∧
      final.iaddr = middle.iaddr ∧ final.iaddrValid = middle.iaddrValid := by
  rw [thenCycleCount, bind_of_ok run]
  by_cases cycles : config.cycleAccurate = true
  · have data : ((middle.advance middle.formatter rest).receive 0x00).data = 0x00 := rfl
    rw [if_pos ⟨rfl, cycles⟩, bind_of_ok (getByte_plain plain input), cycleCountPft, read_bind,
      data]
    exact @printCount_returns config 0 _
  · rw [if_neg (fun both => cycles both.2)]
    exact ⟨middle, rfl, rfl, rfl⟩

theorem typeOf_branch {header : Byte} (isBranch : header = 0x01 ∨ header = 0x81) :
    (config.typeOf header).decode =
      some (match config.table with | .etm33 => .branch | .pft => .branchPft) := by
  unfold Config.typeOf
  rcases isBranch with rfl | rfl
  · cases config.table <;> rfl
  · cases config.table <;> rfl

/-- A whole branch packet of fewer than five bytes, with a zero byte after it for
the cycle count that may follow. -/
theorem packet_short {header : Byte} (isBranch : header = 0x01 ∨ header = 0x81)
    {bytes rest : List Byte} {state : State} (continues : Continues header bytes)
    (few : bytes.length ≤ 3) (noException : (bytes.getLast?).getD header &&& 0x40 = 0)
    (plain : state.useFormatter = false)
    (input : state.input = header :: (bytes ++ 0x00 :: rest)) :
    ∃ final, packet config state = .ok () final ∧
      final.iaddrValid = raiseMask state.iaddrValid
        (BitVec.ofNat 32 (2 ^ packetWidth config.altBranch (1 + bytes.length) - 1) <<<
          state.mode.maskShift) ∧
      ∀ i, packetWidth config.altBranch (1 + bytes.length) + state.mode.shift ≤ i → i < 32 →
        final.iaddr.getLsbD i = state.iaddr.getLsbD i := by
  obtain ⟨middle, run, input', plain', valid, above⟩ :=
    @getBranchAddr_short config bytes (0x00 :: rest)
      ((state.advance state.formatter (bytes ++ 0x00 :: rest)).receive header)
      continues few plain rfl noException
  have branched : branch config
      ((state.advance state.formatter (bytes ++ 0x00 :: rest)).receive header) =
        .ok 0 (middle.print (.branch middle.inSync middle.iaddr none middle.shownValid
          middle.mode)) := by
    rw [branch, bind_of_ok run]
    rfl
  rw [packet_header plain input, handle, typeOf_branch isBranch]
  cases config.table with
  | etm33 =>
      dsimp only [decode]
      rw [bind_of_ok branched]
      exact ⟨_, rfl, valid, above⟩
  | pft =>
      obtain ⟨final, counted, iaddr, valid'⟩ :=
        @thenCycleCount_returns config _ _ _ rest branched plain' input'
      dsimp only [decode, branchPft]
      rw [bind_of_ok counted]
      refine ⟨final, rfl, valid'.trans valid, ?_⟩
      rw [iaddr]
      exact above

end Run

/-! ## When the mask is sound -/

/-- The two states agree on everything but the bits of `iaddr` and `pc` that are not
marked; what has been printed does not matter. -/
structure Agree (s t : State) : Prop where
  others : s.blind = t.blind
  iaddr : ∀ i, s.iaddrValid.getLsbD i = true → s.iaddr.getLsbD i = t.iaddr.getLsbD i
  pc : ∀ i, s.iaddrValid.getLsbD i = true → s.pc.getLsbD i = t.pc.getLsbD i

/-- The mode and the mask do not depend on the unknown bits, nor does any bit that is
marked. -/
structure SameMarked (s t : State) : Prop where
  mode : s.mode = t.mode
  iaddrValid : s.iaddrValid = t.iaddrValid
  iaddr : ∀ i, s.iaddrValid.getLsbD i = true → s.iaddr.getLsbD i = t.iaddr.getLsbD i

/-- Whatever bytes follow, from every two states with this mode and mask that agree. -/
def MaskSound (config : Config) (mode : Mode) (valid : Word) : Prop :=
  ∀ s t : State, s.mode = mode → s.iaddrValid = valid → Agree s t →
    ∀ count s', packets config count s = .ok () s' →
      ∃ t', packets config count t = .ok () t' ∧ SameMarked s' t'

theorem maskSound_of_covered {config : Config} {mode : Mode} {valid : Word}
    (covered : Covered config.altBranch mode valid) : MaskSound config mode valid := by
  rintro s t rfl rfl agree count s' run
  have seen : Seen (Known s.mode s.iaddrValid) s t :=
    ⟨agree.others, agree.iaddr, .inr ⟨rfl, BitVec.le_refl _, agree.iaddr⟩⟩
  obtain ⟨t', run', seen'⟩ := ((lockstep_known covered).keeps_packets count).returns seen run
  exact ⟨t', run', seen'.mode, seen'.iaddrValid, seen'.2.agree⟩

/-- In ARM mode, with nothing known of the address but `iaddr` and the mask. -/
def State.armStart (iaddrValid iaddr : Word) (input : List Byte) : State :=
  { State.start false 0 input with
    mode := .arm
    iaddrValid := iaddrValid
    iaddr := iaddr }

theorem branchBytes_exist {count : Nat} (short : count ∈ [1, 2, 3, 4]) :
    ∃ header bytes, (header = 0x01 ∨ header = 0x81) ∧ Continues header bytes ∧
      1 + bytes.length = count ∧ (bytes.getLast?).getD header &&& 0x40 = 0 := by
  simp only [List.mem_cons, List.not_mem_nil, or_false] at short
  rcases short with rfl | rfl | rfl | rfl
  · exact ⟨0x01, [], .inl rfl, rfl, rfl, rfl⟩
  · exact ⟨0x81, [0x00], .inr rfl, ⟨by decide, rfl⟩, rfl, rfl⟩
  · exact ⟨0x81, [0x80, 0x00], .inr rfl, ⟨by decide, by decide, rfl⟩, rfl, rfl⟩
  · exact ⟨0x81, [0x80, 0x80, 0x00], .inr rfl, ⟨by decide, by decide, by decide, rfl⟩, rfl, rfl⟩

theorem packetWidth_range (altBranch : Bool) {count : Nat} (short : count ∈ [1, 2, 3, 4]) :
    6 ≤ packetWidth altBranch count ∧ packetWidth altBranch count ≤ 27 := by
  simp only [List.mem_cons, List.not_mem_nil, or_false] at short
  unfold packetWidth
  split
  · next several =>
      simp only [Bool.and_eq_true, decide_eq_true_eq] at several
      omega
  · omega

theorem armMask_above (altBranch : Bool) {count : Nat} (short : count ∈ [1, 2, 3, 4]) :
    (armMask altBranch count).getLsbD (packetWidth altBranch count + 2) = true := by
  obtain ⟨least, most⟩ := packetWidth_range altBranch short
  rw [armMask, BitVec.getLsbD_shiftLeft, BitVec.getLsbD_ofNat, Nat.testBit_two_pow_sub_one]
  simp only [Bool.and_eq_true, decide_eq_true_eq, Bool.not_eq_true', decide_eq_false_iff_not]
  omega

theorem packets_one {config : Config} {s t : State} (once : packet config s = .ok () t) :
    packets config 1 s = .ok () t := by
  rw [packets, repeatDown, bind_of_ok once]
  rfl

/-- A packet of `count` bytes in ARM mode: the mask it leads to, and the bit above
those that it brings. -/
theorem packets_armStart (config : Config) {count : Nat} (short : count ∈ [1, 2, 3, 4]) :
    ∃ input : List Byte, ∀ valid iaddr : Word, ∃ final,
      packets config 1 (State.armStart valid iaddr input) = .ok () final ∧
      final.iaddrValid = raiseMask valid (armMask config.altBranch count) ∧
      final.iaddr.getLsbD (packetWidth config.altBranch count + 2) =
        iaddr.getLsbD (packetWidth config.altBranch count + 2) := by
  obtain ⟨header, bytes, isBranch, continues, length, noException⟩ := branchBytes_exist short
  obtain ⟨_, most⟩ := packetWidth_range config.altBranch short
  have few : bytes.length ≤ 3 := by
    simp only [List.mem_cons, List.not_mem_nil, or_false] at short
    omega
  refine ⟨header :: (bytes ++ [0x00]), ?_⟩
  intro valid iaddr
  obtain ⟨final, run, raised, above⟩ :=
    @packet_short config header isBranch bytes []
      (State.armStart valid iaddr (header :: (bytes ++ [0x00]))) continues few noException rfl rfl
  have mode : (State.armStart valid iaddr (header :: (bytes ++ [0x00]))).mode = .arm := rfl
  rw [length, mode] at raised above
  exact ⟨final, packets_one run, raised, above _ (Nat.le_refl _) (Nat.lt_of_le_of_lt
    (Nat.add_le_add_right most 2) (by decide))⟩

theorem covered_of_maskSound {config : Config} {mode : Mode} {valid : Word}
    (sound : MaskSound config mode valid) : Covered config.altBranch mode valid := by
  rintro rfl count short
  by_contra fails
  obtain ⟨raises, unmarked⟩ := not_or.mp fails
  obtain ⟨least, most⟩ := packetWidth_range config.altBranch short
  obtain ⟨input, runs⟩ := packets_armStart config short
  -- The two states differ in the bit above those of the packet.
  have bit : ∀ i, (BitVec.twoPow 32 (packetWidth config.altBranch count + 2)).getLsbD i =
      decide (packetWidth config.altBranch count + 2 = i) := by
    intro i
    have room : packetWidth config.altBranch count + 2 < 32 := by omega
    rw [BitVec.getLsbD_twoPow, decide_eq_true room, Bool.true_and]
  have agree : Agree (State.armStart valid 0 input)
      (State.armStart valid (BitVec.twoPow 32 (packetWidth config.altBranch count + 2)) input) := by
    refine ⟨rfl, ?_, fun _ _ => rfl⟩
    intro i marked
    have elsewhere : packetWidth config.altBranch count + 2 ≠ i := by
      rintro rfl
      exact unmarked marked
    exact BitVec.getLsbD_zero.trans ((bit i).trans (decide_eq_false elsewhere)).symm
  obtain ⟨s', runS, raisedS, aboveS⟩ := runs valid 0
  obtain ⟨t', runT, _, aboveT⟩ :=
    runs valid (BitVec.twoPow 32 (packetWidth config.altBranch count + 2))
  obtain ⟨other, runOther, same⟩ := sound _ _ rfl rfl agree 1 s' runS
  obtain rfl : t' = other := by
    rw [runT] at runOther
    cases runOther
    rfl
  have raised : s'.iaddrValid = armMask config.altBranch count :=
    raisedS.trans (if_pos (BitVec.not_le.mp raises))
  have equal := same.iaddr (packetWidth config.altBranch count + 2)
    (by rw [raised]; exact armMask_above config.altBranch short)
  rw [aboveS, aboveT, bit, decide_eq_true rfl] at equal
  exact Bool.false_ne_true (BitVec.getLsbD_zero.symm.trans equal)

theorem maskSound_iff (config : Config) (mode : Mode) (valid : Word) :
    MaskSound config mode valid ↔ Covered config.altBranch mode valid :=
  ⟨covered_of_maskSound, maskSound_of_covered⟩

/-- One branch byte in ARM mode with nothing known: bit 8 is marked, and it is still
the old one. -/
theorem validMask_marks_unknown :
    Agree (State.armStart 0 0x000 [0x01]) (State.armStart 0 0x100 [0x01]) ∧
      ∃ s' t', packets defaultEtm33 1 (State.armStart 0 0x000 [0x01]) = .ok () s' ∧
        packets defaultEtm33 1 (State.armStart 0 0x100 [0x01]) = .ok () t' ∧
        s'.iaddrValid = 0x1f8 ∧ s'.iaddr = 0x000 ∧ t'.iaddr = 0x100 ∧ ¬ SameMarked s' t' := by
  refine ⟨⟨rfl, by simp [State.armStart], fun _ _ => rfl⟩, ?_⟩
  refine ⟨stateOf (packets defaultEtm33 1 (State.armStart 0 0x000 [0x01])),
    stateOf (packets defaultEtm33 1 (State.armStart 0 0x100 [0x01])), rfl, rfl, by decide +kernel,
    by decide +kernel, by decide +kernel, ?_⟩
  intro same
  have equal := same.iaddr 8 (by decide +kernel)
  revert equal
  decide +kernel

end ImxTest.Etm
