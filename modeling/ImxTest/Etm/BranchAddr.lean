import ImxTest.Etm.Numbers
import ImxTest.Etm.ValidMask

/-!
# Branch packets and the addresses they encode

A branch packet has six bits of the address in its header and seven in every later
byte, above the bits that the instruction set leaves zero.  In the alternative
encoding the last byte has six bits and the exception flag.  The fifth byte has the
flag in both encodings and names the instruction set by where its highest bit is.
-/

set_option autoImplicit false

namespace ImxTest.Etm

open ImxTest.Lib.BitGroups

/-! ## The reference encoding -/

/-- Bit 0 tells a branch from other packets; the decoder of the address does not look
at it. -/
def branchHeader (more : Bool) (addr : Nat) (low : Bool) : Byte :=
  BitVec.ofBool more ++ BitVec.ofNat 6 addr ++ BitVec.ofBool low

/-- The six bits of the fifth byte: `001AAA`, `01AAAA` or `1AAAAA`. -/
def lastGroup (mode : Mode) (addr : Nat) : BitVec 6 :=
  match mode with
  | .arm => 1#3 ++ BitVec.ofNat 3 (addr >>> 27)
  | .thumb => 1#2 ++ BitVec.ofNat 4 (addr >>> 27)
  | .jazelle => 1#1 ++ BitVec.ofNat 5 (addr >>> 27)

def flaggedByte (exception : Bool) (group : BitVec 6) : Byte :=
  0#1 ++ BitVec.ofBool exception ++ group

/-- A packet that leads from `iaddr` in `mode` to the target. -/
structure BranchPacket (altBranch : Bool) (mode : Mode) (iaddr : Word) where
  target : Word
  targetMode : Mode
  exception : Bool
  low : Bool
  length : Nat
  aligned : target.toNat % 2 ^ targetMode.shift = 0
  positive : 1 ≤ length
  most : length ≤ 5
  flagged : exception = true → length = 5 ∨ altBranch = true ∧ 1 < length
  sameMode : length < 5 → targetMode = mode
  sufficient : length < 5 →
    target >>> (mode.shift + packetWidth altBranch length) =
      iaddr >>> (mode.shift + packetWidth altBranch length)

namespace BranchPacket
variable {altBranch : Bool} {mode : Mode} {iaddr : Word}

/-- The address without the bits that are zero. -/
def addr (packet : BranchPacket altBranch mode iaddr) : Nat :=
  (packet.target >>> packet.targetMode.shift).toNat

def header (packet : BranchPacket altBranch mode iaddr) : Byte :=
  branchHeader (packet.length != 1) packet.addr packet.low

def lastByte (packet : BranchPacket altBranch mode iaddr) (count : Nat) : Byte :=
  if count = 4 then flaggedByte packet.exception (lastGroup packet.targetMode packet.addr)
  else if altBranch then
    flaggedByte packet.exception (BitVec.ofNat 6 (packet.addr >>> (7 * count - 1)))
  else groupByte false packet.addr (7 * count - 1)

/-- The last `left` bytes of a packet, from byte `count` on. -/
def bytesFrom (packet : BranchPacket altBranch mode iaddr) : Nat → Nat → List Byte
  | 0, _ => []
  | left + 1, count =>
      (if left = 0 then packet.lastByte count else groupByte true packet.addr (7 * count - 1)) ::
        packet.bytesFrom left (count + 1)

def bytes (packet : BranchPacket altBranch mode iaddr) : List Byte :=
  packet.bytesFrom (packet.length - 1) 1

end BranchPacket

/-! ## Single bytes -/

theorem flaggedByte_bits (exception : Bool) (group : BitVec 6) :
    ∀ i, i < 6 → (flaggedByte exception group).getLsbD i = group.getLsbD i := by
  intro i bound
  rw [flaggedByte, BitVec.getLsbD_append, if_pos bound]

theorem flaggedByte_ends (exception : Bool) (group : BitVec 6) :
    flaggedByte exception group &&& 0x80 = 0 := by
  revert exception group
  decide

theorem flaggedByte_flag (exception : Bool) (group : BitVec 6) :
    (flaggedByte exception group &&& 0x40 != 0) = exception := by
  revert exception group
  decide

theorem modeOf_lastGroup (exception : Bool) (mode : Mode) (addr : Nat) :
    modeOf (flaggedByte exception (lastGroup mode addr)) = mode := by
  cases mode with
  | arm =>
      have bits : ∀ (flag : Bool) (group : BitVec 3),
          modeOf (flaggedByte flag (1#3 ++ group)) = .arm := by decide
      exact bits exception _
  | thumb =>
      have bits : ∀ (flag : Bool) (group : BitVec 4),
          modeOf (flaggedByte flag (1#2 ++ group)) = .thumb := by decide
      exact bits exception _
  | jazelle =>
      have bits : ∀ (flag : Bool) (group : BitVec 5),
          modeOf (flaggedByte flag (1#1 ++ group)) = .jazelle := by decide
      exact bits exception _

/-- The pattern lies above the bits of the address. -/
theorem lastGroup_bits (mode : Mode) (addr : Nat) :
    ∀ i, 27 + i + mode.shift < 32 → (lastGroup mode addr).getLsbD i = addr.testBit (27 + i) := by
  intro i bound
  cases mode with
  | arm =>
      have inside : i < 3 := by
        simp only [Mode.shift] at bound
        omega
      exact getLsbD_append_shifted _ addr 27 inside
  | thumb =>
      have inside : i < 4 := by
        simp only [Mode.shift] at bound
        omega
      exact getLsbD_append_shifted _ addr 27 inside
  | jazelle =>
      have inside : i < 5 := by
        simp only [Mode.shift] at bound
        omega
      exact getLsbD_append_shifted _ addr 27 inside

theorem branchHeader_more (more : Bool) (addr : Nat) (low : Bool) :
    (branchHeader more addr low).getLsbD 7 = more := by
  simp only [branchHeader, BitVec.getLsbD_append]
  simp

theorem branchHeader_holds (more : Bool) (addr : Nat) (low : Bool) (start : Word) :
    Holds 6 addr start ((start &&& ~~~0x3f#32) |||
      ((branchHeader more addr low >>> 1) &&& 0x3f).setWidth 32) := by
  have put := (Holds.start addr start).putGroup (branchHeader more addr low >>> 1) isLow_0x3f
    (by decide) (by
      intro i bound
      have above : ¬ 1 + i < 1 := by omega
      rw [BitVec.getLsbD_ushiftRight, branchHeader, BitVec.getLsbD_append, if_neg above,
        BitVec.getLsbD_append, Nat.add_sub_cancel_left, if_pos bound, BitVec.getLsbD_ofNat,
        Nat.zero_add]
      simp [bound])
  rwa [BitVec.shiftLeft_zero, BitVec.shiftLeft_zero] at put

/-! ## The groups of a packet -/

section Groups
variable {altBranch : Bool} {mode : Mode} {iaddr : Word}
  (packet : BranchPacket altBranch mode iaddr)

/-- What the loop leaves of the address: right where the shift to the new mode keeps
it. -/
def BranchPacket.Kept (word : Word) : Prop :=
  ∀ i, i + packet.targetMode.shift < 32 → word.getLsbD i = packet.addr.testBit i

theorem BranchPacket.lastByte_ends (count : Nat) : packet.lastByte count &&& 0x80 = 0 := by
  unfold lastByte
  split
  · exact flaggedByte_ends _ _
  · split
    · exact flaggedByte_ends _ _
    · exact (groupByte_ends _ _ _).mpr rfl

theorem BranchPacket.shiftLeft_kept {word : Word} (kept : packet.Kept word) :
    word <<< packet.targetMode.shift = packet.target := by
  apply BitVec.eq_of_getLsbD_eq
  intro i bound
  rw [BitVec.getLsbD_shiftLeft]
  by_cases below : i < packet.targetMode.shift
  · have clear : packet.target.getLsbD i = false := by
      have bits := Nat.testBit_mod_two_pow packet.target.toNat packet.targetMode.shift i
      rw [packet.aligned, Nat.zero_testBit, BitVec.testBit_toNat] at bits
      simpa [below] using bits.symm
    simp [below, clear]
  · have above : packet.targetMode.shift + (i - packet.targetMode.shift) = i := by omega
    rw [kept _ (by omega), addr, BitVec.testBit_toNat, BitVec.getLsbD_ushiftRight, above]
    simp [bound, below]

/-- A packet of fewer than five bytes leaves the upper bits as they are. -/
theorem BranchPacket.kept_of_holds {word : Word} (short : packet.length < 5)
    (holds : Holds (packetWidth altBranch packet.length) packet.addr (iaddr >>> mode.shift) word) :
    packet.Kept word := by
  have same := packet.sameMode short
  have agree := packet.sufficient short
  have new : packet.addr = (packet.target >>> mode.shift).toNat := by
    rw [addr, same]
  rw [new] at holds
  have whole : word = packet.target >>> mode.shift := by
    apply holds.eq_of_agree
    rw [← BitVec.shiftRight_add, ← BitVec.shiftRight_add]
    exact agree
  intro i _
  rw [new, whole]
  rfl

theorem BranchPacket.kept_of_fifth {word : Word} {mask : Byte} {bits : Nat}
    (low : IsLow bits mask) (six : 6 ≤ bits) (fits : bits ≤ 8)
    (holds : Holds 27 packet.addr (iaddr >>> mode.shift) word) :
    packet.Kept ((word &&& ~~~(mask.setWidth 32 <<< 27)) |||
      ((packet.lastByte 4 &&& mask).setWidth 32 <<< 27)) := by
  intro i bound
  rw [getLsbD_putGroup low fits (by omega)]
  by_cases below : i < 27
  · rw [if_neg (by omega), holds i (by omega), if_pos below]
  · rw [if_pos (by omega), lastByte, if_pos rfl, flaggedByte_bits _ _ _ (by omega),
      lastGroup_bits _ _ _ (by omega)]
    congr 1
    omega

/-- The word after the last byte; the mask is that of the encoding. -/
theorem BranchPacket.kept_of_last {word : Word} {count : Nat} (positive : 1 ≤ count)
    (length : count + 1 = packet.length)
    (holds : Holds (7 * count - 1) packet.addr (iaddr >>> mode.shift) word) :
    packet.Kept ((word &&& ~~~((if altBranch then 0x3f else 0x7f : Byte).setWidth 32 <<<
        (7 * count - 1))) |||
      ((packet.lastByte count &&& (if altBranch then 0x3f else 0x7f : Byte)).setWidth 32 <<<
        (7 * count - 1))) := by
  have most := packet.most
  by_cases fifth : count = 4
  · subst fifth
    cases altBranch with
    | true => exact packet.kept_of_fifth isLow_0x3f (by decide) (by decide) holds
    | false => exact packet.kept_of_fifth isLow_0x7f (by decide) (by decide) holds
  · apply packet.kept_of_holds (by omega)
    rw [lastByte, if_neg fifth, ← length]
    cases altBranch with
    | true =>
        have width : packetWidth true (count + 1) = 7 * count - 1 + 6 := by
          have later : 0 < count := positive
          simp only [packetWidth, Bool.true_and, decide_eq_true_eq, if_pos (Nat.succ_lt_succ later)]
          omega
        rw [width]
        refine holds.putGroup _ isLow_0x3f (by decide) ?_
        intro i bound
        rw [if_pos rfl, flaggedByte_bits _ _ i bound, BitVec.getLsbD_ofNat, Nat.testBit_shiftRight]
        simp [bound]
    | false =>
        have width : packetWidth false (count + 1) = 7 * count - 1 + 7 := by
          simp only [packetWidth, Bool.false_and, Bool.false_eq_true, if_false]
          omega
        rw [width]
        exact holds.putGroup _ isLow_0x7f (by decide) (groupByte_bits _ _ _)

end Groups

theorem branchGroups_stops (config : Config) (left count : Nat) (addr validMask : Word)
    {s : State} (ends : s.data &&& 0x80 = 0) :
    branchGroups config left count addr validMask s = .ok (count, addr, validMask) s := by
  cases left with
  | zero => rfl
  | succ left =>
      rw [branchGroups, read_bind, if_neg (not_not_intro ends)]
      rfl

def branchMask (altBranch : Bool) (ch : Byte) : Byte :=
  if altBranch && ch &&& 0x80 == 0 then 0x3f else 0x7f

theorem branchMask_last {altBranch : Bool} {ch : Byte} (ends : ch &&& 0x80 = 0) :
    branchMask altBranch ch = if altBranch then 0x3f else 0x7f := by
  rw [branchMask, ends]
  cases altBranch with
  | true => rfl
  | false => rfl

theorem branchMask_more (altBranch : Bool) {ch : Byte} (more : ch &&& 0x80 ≠ 0) :
    branchMask altBranch ch = 0x7f := by
  have other : (ch &&& 0x80 == 0) = false := beq_eq_false_iff_ne.mpr more
  rw [branchMask, other, Bool.and_false]
  rfl

theorem branchGroups_next (config : Config) (left count : Nat) (addr validMask : Word)
    {ch : Byte} {s next : State} (more : s.data &&& 0x80 ≠ 0) (returned : getByte s = .ok ch next) :
    branchGroups config (left + 1) count addr validMask s =
      branchGroups config left (count + 1)
        ((addr &&& ~~~((branchMask config.altBranch ch).setWidth 32 <<< (7 * count - 1))) |||
          ((ch &&& branchMask config.altBranch ch).setWidth 32 <<< (7 * count - 1)))
        (validMask ^^^ (branchMask config.altBranch ch).setWidth 32 <<< (7 * count - 1)) next := by
  rw [branchGroups, read_bind, if_pos more, bind_of_ok returned]
  rfl

theorem getByte_data {ch : Byte} {s t : State} (returned : getByte s = .ok ch t) :
    t.data = ch := by
  obtain ⟨formatter, input, _, rfl⟩ := getByte_ok returned
  rfl

theorem branchGroups_gives {config : Config} {mode : Mode} {iaddr : Word}
    (packet : BranchPacket config.altBranch mode iaddr) {left passes count : Nat}
    {word validMask : Word} {s t : State} (positive : 1 ≤ count)
    (length : count + (left + 1) = packet.length) (fits : passes + count = 5)
    (more : s.data &&& 0x80 ≠ 0)
    (holds : Holds (7 * count - 1) packet.addr (iaddr >>> mode.shift) word)
    (gives : Gives s (packet.bytesFrom (left + 1) count) t) :
    ∃ final mask, branchGroups config passes count word validMask s =
        .ok (packet.length, final, mask) t ∧
      packet.Kept final ∧ t.data = packet.lastByte (packet.length - 1) := by
  have most := packet.most
  induction left generalizing passes count word validMask s with
  | zero =>
      obtain ⟨passes, rfl⟩ : ∃ fewer, passes = fewer + 1 := ⟨passes - 1, by omega⟩
      obtain ⟨next, returned, ended⟩ := gives
      cases ended
      have data : t.data = packet.lastByte count := getByte_data returned
      have ends := packet.lastByte_ends count
      rw [branchGroups_next config passes count word validMask more returned,
        branchGroups_stops _ _ _ _ _ (by rw [data]; exact ends), ← length]
      refine ⟨_, _, rfl, ?_, data⟩
      have kept := packet.kept_of_last positive length holds
      rwa [← branchMask_last ends] at kept
  | succ left ih =>
      obtain ⟨passes, rfl⟩ : ∃ fewer, passes = fewer + 1 := ⟨passes - 1, by omega⟩
      obtain ⟨next, returned, later⟩ := gives
      have data : next.data = groupByte true packet.addr (7 * count - 1) := getByte_data returned
      have again : groupByte true packet.addr (7 * count - 1) &&& 0x80 ≠ 0 := by
        intro ends
        exact Bool.noConfusion ((groupByte_ends _ _ _).mp ends)
      have put := holds.putGroup _ isLow_0x7f (by decide)
        (groupByte_bits true packet.addr (7 * count - 1))
      have width : 7 * count - 1 + 7 = 7 * (count + 1) - 1 := by omega
      rw [width] at put
      rw [branchGroups_next config passes count word validMask more returned, if_neg (by omega),
        branchMask_more _ again]
      exact ih (by omega) (by omega) (by omega) (by rw [data]; exact again) put later

/-! ## The whole packet -/

theorem Gives.mode {bytes : List Byte} {s t : State} (gives : Gives s bytes t) :
    t.mode = s.mode := by
  induction bytes generalizing s with
  | nil =>
      cases gives
      rfl
  | cons ch rest ih =>
      obtain ⟨next, returned, later⟩ := gives
      have same : next.mode = s.mode := by
        obtain ⟨formatter, input, _, rfl⟩ := getByte_ok returned
        rfl
      rw [ih later, same]

theorem finishBranch_ok (config : Config) (count : Nat) (addr validMask : Word) (s : State) :
    ∃ final, finishBranch config count addr validMask s =
        .ok ((count == 5 || config.altBranch && 1 < count) && s.data &&& 0x40 != 0) final ∧
      final.mode = (if count = 5 then modeOf s.data else s.mode) ∧
      final.iaddr = addr <<< final.mode.shift ∧ final.pc = final.iaddr ∧
      final.input = s.input ∧ final.formatter = s.formatter := by
  rw [finishBranch, read_bind]
  generalize ((count == 5 || config.altBranch && decide (1 < count)) && s.data &&& 0x40 != 0) = ret
  cases !ret && config.programFlowOnly with
  | true =>
      by_cases five : count = 5
      · subst five
        exact ⟨_, rfl, rfl, rfl, rfl, rfl, rfl⟩
      · simp only [beq_false_of_ne five, if_neg five]
        exact ⟨_, rfl, rfl, rfl, rfl, rfl, rfl⟩
  | false =>
      by_cases five : count = 5
      · subst five
        exact ⟨_, rfl, rfl, rfl, rfl, rfl, rfl⟩
      · simp only [beq_false_of_ne five, if_neg five]
        exact ⟨_, rfl, rfl, rfl, rfl, rfl, rfl⟩

section Whole
variable {config : Config} {state after : State}
  (packet : BranchPacket config.altBranch state.mode state.iaddr)

theorem BranchPacket.groups (header : state.data = packet.header)
    (gives : Gives state packet.bytes after) :
    ∃ word mask, branchGroups config 4 1 ((state.iaddr >>> state.mode.shift &&& ~~~0x3f#32) |||
          ((state.data >>> 1) &&& 0x3f).setWidth 32) 0x3f state =
        .ok (packet.length, word, mask) after ∧ packet.Kept word ∧
      (1 < packet.length → after.data = packet.lastByte (packet.length - 1)) := by
  have positive := packet.positive
  have holds : Holds 6 packet.addr (state.iaddr >>> state.mode.shift) _ :=
    branchHeader_holds (packet.length != 1) packet.addr packet.low _
  have more := branchHeader_more (packet.length != 1) packet.addr packet.low
  rw [header]
  unfold bytes at gives
  by_cases single : packet.length = 1
  · rw [single] at gives
    cases gives
    have ends : state.data &&& 0x80 = 0 := by
      rw [and_0x80_eq_zero, header, BranchPacket.header, more, single]
      rfl
    have width : packetWidth config.altBranch packet.length = 6 := by
      simp [packetWidth, single]
    have kept : packet.Kept _ := packet.kept_of_holds (by omega) (by rw [width]; exact holds)
    rw [single]
    exact ⟨_, _, branchGroups_stops _ _ _ _ _ ends, kept, by omega⟩
  · obtain ⟨left, count⟩ : ∃ left, packet.length = left + 2 := ⟨packet.length - 2, by omega⟩
    have again : state.data &&& 0x80 ≠ 0 := by
      rw [ne_eq, and_0x80_eq_zero, header, BranchPacket.header, more, count]
      simp
    rw [show packet.length - 1 = left + 1 by omega] at gives
    obtain ⟨word, mask, run, kept, data⟩ := branchGroups_gives packet (Nat.le_refl 1)
      (by omega) rfl again holds gives
    exact ⟨word, mask, run, kept, fun _ => data⟩

theorem BranchPacket.flag (data : 1 < packet.length →
    after.data = packet.lastByte (packet.length - 1)) :
    ((packet.length == 5 || config.altBranch && 1 < packet.length) &&
      after.data &&& 0x40 != 0) = packet.exception := by
  by_cases carried : packet.length = 5 ∨ config.altBranch = true ∧ 1 < packet.length
  · have condition : (packet.length == 5 || config.altBranch && 1 < packet.length) = true := by
      simpa using carried
    rw [condition, Bool.true_and, data (by omega), lastByte]
    split
    · exact flaggedByte_flag _ _
    · next notFifth =>
        have alt := (carried.resolve_left (by omega)).1
        rw [if_pos alt]
        exact flaggedByte_flag _ _
  · have condition : (packet.length == 5 || config.altBranch && 1 < packet.length) = false := by
      simpa using carried
    rw [condition, Bool.false_and]
    cases exception : packet.exception with
    | true => exact absurd (packet.flagged exception) carried
    | false => rfl

theorem BranchPacket.mode_eq (gives : Gives state packet.bytes after)
    (data : 1 < packet.length → after.data = packet.lastByte (packet.length - 1)) :
    (if packet.length = 5 then modeOf after.data else after.mode) = packet.targetMode := by
  have most := packet.most
  split
  · next five =>
      rw [data (by omega), five]
      exact modeOf_lastGroup _ _ _
  · rw [gives.mode, packet.sameMode (by omega)]

/-- `get_branch_addr` goes where the packet leads and stops behind it. -/
theorem getBranchAddr_decodes (header : state.data = packet.header)
    (gives : Gives state packet.bytes after) :
    ∃ final, getBranchAddr config state = .ok packet.exception final ∧
      final.iaddr = packet.target ∧ final.pc = packet.target ∧ final.mode = packet.targetMode ∧
      final.input = after.input ∧ final.formatter = after.formatter := by
  obtain ⟨word, mask, groups, kept, data⟩ := packet.groups header gives
  obtain ⟨final, finished, mode, iaddr, pc, input, formatter⟩ :=
    finishBranch_ok config packet.length word mask after
  rw [packet.flag data] at finished
  rw [packet.mode_eq gives data] at mode
  rw [mode, packet.shiftLeft_kept kept] at iaddr
  refine ⟨final, ?_, iaddr, pc.trans iaddr, mode, input, formatter⟩
  rw [getBranchAddr, read_bind, read_bind, bind_of_ok groups]
  exact finished

end Whole

/-- Five bytes lead from ARM code at 0 to Thumb code, with an exception. -/
theorem getBranchAddr_decodes_thumb :
    ∃ (packet : BranchPacket false .arm 0) (final : State),
      packet.target = 0x87654322 ∧ packet.targetMode = .thumb ∧
      getBranchAddr defaultEtm33
          { State.start false 0 (packet.bytes ++ [0x99]) with mode := .arm, data := 0xa3 } =
        .ok true final ∧
      final.iaddr = 0x87654322 ∧ final.mode = .thumb ∧ final.input = [0x99] := by
  let packet : BranchPacket false .arm 0 :=
    { target := 0x87654322
      targetMode := .thumb
      exception := true
      low := true
      length := 5
      aligned := by decide
      positive := by decide
      most := by decide
      flagged := fun _ => .inl rfl
      sameMode := by decide
      sufficient := by decide }
  let state : State :=
    { State.start false 0 (packet.bytes ++ [0x99]) with mode := .arm, data := 0xa3 }
  obtain ⟨after, gives, rest⟩ := @gives_plain state packet.bytes [0x99] rfl rfl
  have header : state.data = packet.header := by decide
  obtain ⟨final, run, iaddr, _, mode, input, _⟩ :=
    @getBranchAddr_decodes defaultEtm33 state after packet header gives
  exact ⟨packet, final, rfl, rfl, run, iaddr, mode, input.trans rest⟩

end ImxTest.Etm
