import ImxTest.Lib.BitGroups
import ImxTest.Etm.Decoder

/-!
# Numbers in a packet

A timestamp, a cycle count and the address of a data packet come in groups of seven
bits, the lowest group first; bit 7 of a byte says that another one follows.  The
decoder puts the groups of a timestamp or an address over the bits of the last one,
so that a packet leaves out what has not changed.

The bytes of a packet are those that the next calls of `get_byte` return, from the
input or from the frames of the formatter.
-/

set_option autoImplicit false

namespace ImxTest.Etm

open ImxTest.Lib.BitGroups

/-! ## The bytes of a packet -/

def Gives : State → List Byte → State → Prop
  | s, [], t => t = s
  | s, ch :: rest, t => ∃ next, getByte s = .ok ch next ∧ Gives next rest t

theorem Gives.append {s t : State} {first second : List Byte}
    (gives : Gives s (first ++ second) t) :
    ∃ middle, Gives s first middle ∧ Gives middle second t := by
  induction first generalizing s with
  | nil => exact ⟨s, rfl, gives⟩
  | cons ch rest ih =>
      obtain ⟨next, returned, later⟩ := gives
      obtain ⟨middle, before, behind⟩ := ih later
      exact ⟨middle, ⟨next, returned, before⟩, behind⟩

theorem gives_plain {state : State} {bytes rest : List Byte} (plain : state.useFormatter = false)
    (input : state.input = bytes ++ rest) :
    ∃ after, Gives state bytes after ∧ after.input = rest := by
  induction bytes generalizing state with
  | nil => exact ⟨state, rfl, input⟩
  | cons ch more ih =>
      obtain ⟨after, gives, left⟩ :=
        @ih ((state.advance state.formatter (more ++ rest)).receive ch) plain rfl
      exact ⟨after, ⟨_, getByte_plain plain input, gives⟩, left⟩

theorem getByte_ok {ch : Byte} {s t : State} (returned : getByte s = .ok ch t) :
    ∃ formatter input, takeByte s.useFormatter s.formatter s.input = some (ch, formatter, input) ∧
      t = (s.advance formatter input).receive ch := by
  unfold getByte at returned
  split at returned
  · cases returned
  · next ch' formatter input taken =>
      cases returned
      exact ⟨formatter, input, taken, rfl⟩

theorem getByte_left {ch : Byte} {s t : State} (returned : getByte s = .ok ch t) :
    t.formatter.left t.input < s.formatter.left s.input := by
  obtain ⟨formatter, input, taken, rfl⟩ := getByte_ok returned
  unfold takeByte at taken
  split at taken
  · exact Formatter.left_loop _ _ _ taken
  · split at taken
    · cases taken
    · next consumed =>
        cases taken
        rw [consumed]
        exact Nat.add_lt_add_right (Nat.lt_succ_self _) _

theorem and_0x80_eq_zero (data : Byte) : data &&& 0x80 = 0 ↔ data.getLsbD 7 = false := by
  revert data
  decide

theorem groupByte_ends (more : Bool) (number shift : Nat) :
    groupByte more number shift &&& 0x80 = 0 ↔ more = false := by
  rw [and_0x80_eq_zero, groupByte_more]

/-! ## Timestamps -/

/-- The bytes of `count` groups from group `i` on; the ninth has eight bits. -/
def timestampBytes (number : Nat) : Nat → Nat → List Byte
  | 0, _ => []
  | count + 1, i =>
      (if i = 8 then BitVec.ofNat 8 (number >>> 56) else groupByte (count != 0) number (7 * i)) ::
        timestampBytes number count (i + 1)

def timestampWidth (count : Nat) : Nat :=
  if count = 9 then 64 else 7 * count

theorem timestampGroups_gives {number count left i : Nat} {old word : BitVec 64} {s t : State}
    (positive : 0 < count) (fits : i + count ≤ 9) (passes : i + left = 9)
    (holds : Holds (7 * i) number old word)
    (gives : Gives s (timestampBytes number count i) t) :
    ∃ value, timestampGroups left i word s = .ok value t ∧
      Holds (timestampWidth (i + count)) number old value := by
  induction count generalizing left i word s with
  | zero => cases positive
  | succ count ih =>
      obtain ⟨left, rfl⟩ : ∃ fewer, left = fewer + 1 := ⟨left - 1, by omega⟩
      obtain ⟨next, returned, later⟩ := gives
      rw [timestampGroups, bind_of_ok returned]
      by_cases ninth : i = 8
      · subst ninth
        obtain ⟨rfl, rfl⟩ : count = 0 ∧ left = 0 := by omega
        cases later
        have put := holds.putGroup (BitVec.ofNat 8 (number >>> 56)) isLow_0xff (Nat.le_refl 8) (by
          intro i bound
          rw [BitVec.getLsbD_ofNat, Nat.testBit_shiftRight]
          simp [bound])
        refine ⟨_, ?_, put⟩
        simp only [timestampGroups, ite_self]
        rfl
      · have put : Holds (7 * (i + 1)) number old _ :=
          holds.putGroup (groupByte (count != 0) number (7 * i)) isLow_0x7f (by decide)
            (groupByte_bits _ _ _)
        simp only [if_neg ninth, groupByte_ends]
        cases count with
        | zero =>
            cases later
            refine ⟨_, rfl, ?_⟩
            rw [timestampWidth, if_neg (by omega)]
            exact put
        | succ count =>
            obtain ⟨value, decoded, whole⟩ :=
              ih (Nat.succ_pos count) (by omega) (show i + 1 + left = 9 by omega) put later
            refine ⟨value, decoded, ?_⟩
            rwa [Nat.add_right_comm] at whole

theorem timestamp_of_groups {value : BitVec 64} {s t : State}
    (decoded : timestampGroups 9 0 s.timestamp s = .ok value t) :
    timestamp s = .ok 0 ((t.print (.timestamp t.inSync value (value - t.timestamp)
      (s.data &&& 4 != 0))).setTimestamp value) := by
  rw [timestamp, read_bind, read_bind, bind_of_ok decoded]
  rfl

/-- A packet of up to nine bytes brings the bits of the new timestamp that differ
from the old one. -/
theorem timestamp_decodes (old new : BitVec 64) (count : Nat) (positive : 1 ≤ count)
    (most : count ≤ 9)
    (agree : count = 9 ∨ new >>> (7 * count) = old >>> (7 * count))
    (state after : State) (before : state.timestamp = old)
    (gives : Gives state (timestampBytes new.toNat count 0) after) :
    ∃ final, timestamp state = .ok 0 final ∧ final.timestamp = new ∧
      final.input = after.input ∧ final.formatter = after.formatter := by
  obtain ⟨value, decoded, holds⟩ :=
    timestampGroups_gives positive (by omega) (Nat.zero_add 9) (Holds.start new.toNat old) gives
  have same : value = new := by
    apply holds.eq_of_agree
    rw [Nat.zero_add, timestampWidth]
    split
    · rw [BitVec.ushiftRight_eq_zero (Nat.le_refl 64), BitVec.ushiftRight_eq_zero (Nat.le_refl 64)]
    · exact agree.resolve_left ‹_›
  subst before same
  exact ⟨_, timestamp_of_groups decoded, rfl, rfl, rfl⟩

/-- Two bytes for the step from 0 to 300. -/
theorem timestamp_decodes_300 :
    ∃ final, timestamp (State.start false 0 (timestampBytes 300 2 0 ++ [0x99])) = .ok 0 final ∧
      final.timestamp = 300 ∧ final.input = [0x99] := by
  let state := State.start false 0 (timestampBytes 300 2 0 ++ [0x99])
  obtain ⟨after, gives, rest⟩ := @gives_plain state (timestampBytes 300 2 0) [0x99] rfl rfl
  obtain ⟨final, decoded, value, input, _⟩ := timestamp_decodes 0 300 2 (by decide) (by decide)
    (.inr (by decide)) state after rfl gives
  exact ⟨final, decoded, value, input.trans rest⟩

/-! ## Cycle counts -/

theorem countGroups_gives {number count left shift : Nat} {word : Word} {s t : State}
    (positive : 0 < count) (fits : count ≤ left) (holds : Holds shift number 0#32 word)
    (gives : Gives s (groupBytes number count shift) t) :
    ∃ value, countGroups left shift word s = .ok value t ∧
      Holds (shift + 7 * count) number 0#32 value := by
  induction count generalizing left shift word s with
  | zero => cases positive
  | succ count ih =>
      obtain ⟨left, rfl⟩ : ∃ fewer, left = fewer + 1 := ⟨left - 1, by omega⟩
      obtain ⟨next, returned, later⟩ := gives
      have put := holds.orGroup (groupByte (count != 0) number shift) isLow_0x7f (by decide)
        (groupByte_bits _ _ _)
      rw [countGroups, bind_of_ok returned]
      simp only [groupByte_ends]
      cases count with
      | zero =>
          cases later
          exact ⟨_, rfl, put⟩
      | succ count =>
          obtain ⟨value, decoded, whole⟩ :=
            ih (Nat.succ_pos count) (Nat.le_of_succ_le_succ fits) put later
          have widths : shift + 7 + 7 * (count + 1) = shift + 7 * (count + 1 + 1) := by omega
          refine ⟨value, decoded, ?_⟩
          rwa [widths] at whole

def countLines (config : Config) (inSync : Bool) (count : Word) : List Line :=
  (if config.longWait < count then [.longWait] else []) ++ [.cycleCount inSync count]

def State.printAll (state : State) (lines : List Line) : State :=
  { state with log := state.log ++ lines.map Entry.line }

theorem printCount_eq (config : Config) (count : Word) (state : State) :
    printCount config count state =
      .ok 0 (state.printAll (countLines config state.inSync count)) := by
  rw [printCount, countLines]
  by_cases long : config.longWait < count
  · simp [long, onlyIf, print, update, Bind.bind, EStateM.bind, State.print, State.printAll,
      State.inSync, Pure.pure, EStateM.pure]
  · simp [long, onlyIf, print, update, Bind.bind, EStateM.bind, State.print, State.printAll,
      State.inSync, Pure.pure, EStateM.pure]

/-- The header of a cycle count of the program flow trace: four bits of the count
and the bit that says that groups follow.  The others are not looked at. -/
def countHeader (top : Bool) (low : BitVec 2) (more : Bool) (number : Nat) : Byte :=
  BitVec.ofBool top ++ BitVec.ofBool more ++ BitVec.ofNat 4 number ++ low

theorem countHeader_more (top : Bool) (low : BitVec 2) (more : Bool) (number : Nat) :
    countHeader top low more number &&& 0x40 ≠ 0 ↔ more = true := by
  have bit : (countHeader top low more number).getLsbD 6 = more := by
    simp only [countHeader, BitVec.getLsbD_append]
    simp
  have sixth : ∀ data : Byte, data &&& 0x40 ≠ 0 ↔ data.getLsbD 6 = true := by decide
  rw [sixth, bit]

theorem countHeader_holds (top : Bool) (low : BitVec 2) (more : Bool) (number : Nat) :
    Holds 4 number 0#32 (((countHeader top low more number >>> 2) &&& 0xf).setWidth 32) := by
  have four : IsLow 4 0xf#8 := isLow_of_forall (by decide)
  have put := (Holds.start number 0#32).orGroup (countHeader top low more number >>> 2) four
    (by decide) (by
      intro i bound
      have above : ¬ 2 + i < 2 := by omega
      rw [BitVec.getLsbD_ushiftRight, countHeader, BitVec.getLsbD_append, if_neg above,
        BitVec.getLsbD_append, Nat.add_sub_cancel_left, if_pos bound, BitVec.getLsbD_ofNat,
        Nat.zero_add]
      simp [bound])
  rwa [BitVec.shiftLeft_zero, BitVec.zero_or] at put

/-- Both formats of a cycle count bring the count that they encode. -/
theorem cycleCounts_decode (config : Config) (number : Nat) (state after : State) :
    (∀ count, 1 ≤ count → count ≤ 5 → number < 2 ^ (7 * count) →
        Gives state (groupBytes number count 0) after →
        ccount config state =
          .ok 0 (after.printAll (countLines config after.inSync (BitVec.ofNat 32 number)))) ∧
      ∀ top low count, count ≤ 4 → number < 2 ^ (4 + 7 * count) →
        state.data = countHeader top low (count != 0) number →
        Gives state (groupBytes number count 4) after →
        cycleCountPft config state =
          .ok 0 (after.printAll (countLines config after.inSync (BitVec.ofNat 32 number))) := by
  constructor
  · intro count positive most less gives
    obtain ⟨value, decoded, holds⟩ :=
      countGroups_gives positive most (Holds.start number 0#32) gives
    rw [Nat.zero_add] at holds
    rw [← holds.eq_ofNat_of_lt less, ← printCount_eq]
    exact bind_of_ok decoded (printCount config)
  · intro top low count most less header gives
    have start := countHeader_holds top low (count != 0) number
    have more := countHeader_more top low (count != 0) number
    rw [cycleCountPft, read_bind, header]
    cases count with
    | zero =>
        cases gives
        rw [if_neg (fun set => Bool.noConfusion (more.mp set))]
        rw [← start.eq_ofNat_of_lt less]
        exact printCount_eq config _ state
    | succ count =>
        obtain ⟨value, decoded, holds⟩ :=
          countGroups_gives (Nat.succ_pos count) most start gives
        rw [if_pos (more.mpr rfl), bind_of_ok decoded, printCount_eq,
          holds.eq_ofNat_of_lt less]

theorem cycleCounts_decode_300 :
    (∃ after : State, after.input = [0x99] ∧
      ccount defaultEtm33 (State.start false 0 (groupBytes 300 2 0 ++ [0x99])) =
        .ok 0 (after.printAll (countLines defaultEtm33 after.inSync 300))) ∧
      ∃ after : State, after.input = [0x99] ∧
        cycleCountPft defaultEtm33
            { State.start false 0 (groupBytes 300 1 4 ++ [0x99]) with data := 0x70 } =
          .ok 0 (after.printAll (countLines defaultEtm33 after.inSync 300)) := by
  constructor
  · let state := State.start false 0 (groupBytes 300 2 0 ++ [0x99])
    obtain ⟨after, gives, rest⟩ := @gives_plain state (groupBytes 300 2 0) [0x99] rfl rfl
    exact ⟨after, rest, (cycleCounts_decode defaultEtm33 300 state after).1 2 (by decide)
      (by decide) (by decide) gives⟩
  · let state : State :=
      { State.start false 0 (groupBytes 300 1 4 ++ [0x99]) with data := 0x70 }
    obtain ⟨after, gives, rest⟩ := @gives_plain state (groupBytes 300 1 4) [0x99] rfl rfl
    exact ⟨after, rest, (cycleCounts_decode defaultEtm33 300 state after).2 false 0 1 (by decide)
      (by decide) (by decide) gives⟩

/-! ## Normal data -/

def dataBytes (number : Nat) : Nat → Nat → List Byte
  | 0, _ => []
  | count + 1, i => BitVec.ofNat 8 (number >>> (8 * i)) :: dataBytes number count (i + 1)

theorem wordBytes_gives {number count i : Nat} {word : Word} {s t : State}
    (holds : Holds (8 * i) number 0#32 word) (gives : Gives s (dataBytes number count i) t) :
    ∃ value, wordBytes count i word s = .ok value t ∧
      Holds (8 * (i + count)) number 0#32 value := by
  induction count generalizing i word s with
  | zero =>
      cases gives
      exact ⟨word, rfl, holds⟩
  | succ count ih =>
      obtain ⟨next, returned, later⟩ := gives
      have put : Holds (8 * (i + 1)) number 0#32 _ :=
        holds.orGroup (BitVec.ofNat 8 (number >>> (8 * i))) isLow_0xff (Nat.le_refl 8) (by
          intro j bound
          rw [BitVec.getLsbD_ofNat, Nat.testBit_shiftRight]
          simp [bound])
      have all : 0xff#8 = BitVec.allOnes 8 := by decide
      rw [all, BitVec.and_allOnes] at put
      obtain ⟨value, decoded, whole⟩ := ih put later
      refine ⟨value, ?_, ?_⟩
      · rw [wordBytes, bind_of_ok returned]
        exact decoded
      · rwa [Nat.add_right_comm] at whole

def State.setDaddr (daddr : Word) (state : State) : State :=
  { state with daddr := daddr }

theorem getByte_setDaddr {ch : Byte} {s t : State} (returned : getByte s = .ok ch t)
    (daddr : Word) : getByte (s.setDaddr daddr) = .ok ch (t.setDaddr daddr) := by
  obtain ⟨formatter, input, taken, rfl⟩ := getByte_ok returned
  simp only [getByte, State.setDaddr, taken]
  rfl

theorem Gives.setDaddr {bytes : List Byte} {s t : State} (gives : Gives s bytes t)
    (daddr : Word) : Gives (s.setDaddr daddr) bytes (t.setDaddr daddr) := by
  induction bytes generalizing s with
  | nil =>
      cases gives
      rfl
  | cons ch rest ih =>
      obtain ⟨next, returned, later⟩ := gives
      exact ⟨_, getByte_setDaddr returned daddr, ih later⟩

theorem getByte_daddr {ch : Byte} {s t : State} (returned : getByte s = .ok ch t) :
    t.daddr = s.daddr := by
  obtain ⟨formatter, input, _, rfl⟩ := getByte_ok returned
  rfl

theorem daddrGroups_gives {number count left i : Nat} {old : Word} {s t : State}
    (positive : 0 < count) (fits : count ≤ left) (holds : Holds (7 * i) number old s.daddr)
    (gives : Gives s (groupBytes number count (7 * i)) t) :
    ∃ daddr, daddrGroups left i s = .ok () (t.setDaddr daddr) ∧
      Holds (7 * (i + count)) number old daddr := by
  induction count generalizing left i s t with
  | zero => cases positive
  | succ count ih =>
      obtain ⟨left, rfl⟩ : ∃ fewer, left = fewer + 1 := ⟨left - 1, by omega⟩
      obtain ⟨next, returned, later⟩ := gives
      rw [← getByte_daddr returned] at holds
      have wide : (0x7f#8).setWidth 32 = 0x7f#32 := by decide
      have put := holds.putGroup (groupByte (count != 0) number (7 * i)) isLow_0x7f (by decide)
        (groupByte_bits _ _ _)
      rw [wide] at put
      have moved : Gives (State.setDaddrGroup i (groupByte (count != 0) number (7 * i)) next) _ _ :=
        later.setDaddr _
      rw [daddrGroups, bind_of_ok returned]
      simp only [groupByte_ends]
      cases count with
      | zero =>
          cases later
          exact ⟨_, rfl, put⟩
      | succ count =>
          obtain ⟨daddr, decoded, whole⟩ :=
            @ih left (i + 1) _ _ (Nat.succ_pos count) (Nat.le_of_succ_le_succ fits) put moved
          refine ⟨daddr, decoded, ?_⟩
          rwa [Nat.add_right_comm] at whole

def ndataHeader (hasAddr : Bool) (size : BitVec 2) : Byte :=
  0#2 ++ BitVec.ofBool hasAddr ++ 0#1 ++ size ++ 2#2

theorem ndataHeader_size (hasAddr : Bool) (size : BitVec 2) :
    ((ndataHeader hasAddr size >>> 2) &&& 3).toNat = size.toNat := by
  revert hasAddr size
  decide

theorem ndataHeader_hasAddr (hasAddr : Bool) (size : BitVec 2) :
    (ndataHeader hasAddr size &&& 0x20 != 0) = hasAddr := by
  revert hasAddr size
  decide

theorem typeOf_ndataHeader {config : Config} (table : config.table = .etm33) (hasAddr : Bool)
    (size : BitVec 2) : (config.typeOf (ndataHeader hasAddr size)).decode = some .ndata := by
  rw [Config.typeOf, table]
  revert hasAddr size
  decide

def dataLength (size : BitVec 2) : Nat :=
  if size = 3 then 4 else size.toNat

/-- A packet of normal data after the address `old`.  The address part is the new
address with the number of its bytes. -/
structure DataPacket (old : Word) where
  data : Word
  size : BitVec 2
  address : Option (Word × Nat)
  represents : data.toNat < 2 ^ (8 * dataLength size)
  sufficient : ∀ new count, address = some (new, count) →
    1 ≤ count ∧ count ≤ 5 ∧ new >>> (7 * count) = old >>> (7 * count)

namespace DataPacket
variable {old : Word}

def header (packet : DataPacket old) : Byte :=
  ndataHeader packet.address.isSome packet.size

def addressBytes (packet : DataPacket old) : List Byte :=
  match packet.address with
  | none => []
  | some (new, count) => groupBytes new.toNat count 0

def bytes (packet : DataPacket old) : List Byte :=
  packet.addressBytes ++ dataBytes packet.data.toNat (dataLength packet.size) 0

def daddr (packet : DataPacket old) : Word :=
  (packet.address.map Prod.fst).getD old

/-- The line that is printed; without data bytes it has no data. -/
def line (packet : DataPacket old) (inSync : Bool) : Line :=
  .normalData inSync (if packet.size = 0 then none else some packet.data)
    (packet.address.map Prod.fst)

/-- `ndata` brings the data and the address of the packet and stops behind it. -/
def Complete (packet : DataPacket old) (state after : State) : Prop :=
  ∃ final, ndata state = .ok 0 final ∧ final.daddr = packet.daddr ∧
    final.input = after.input ∧ final.formatter = after.formatter ∧
    final.log = after.log ++ [.line (packet.line after.inSync)]

end DataPacket

theorem daddr_part {s t : State} (packet : DataPacket s.daddr)
    (gives : Gives s packet.addressBytes t) :
    onlyIf packet.address.isSome (daddrGroups 5 0) s = .ok () (t.setDaddr packet.daddr) := by
  unfold DataPacket.addressBytes at gives
  unfold DataPacket.daddr
  cases address : packet.address with
  | none =>
      rw [address] at gives
      cases gives
      rfl
  | some part =>
      obtain ⟨new, count⟩ := part
      obtain ⟨positive, most, agree⟩ := packet.sufficient new count address
      rw [address] at gives
      have groups : Gives s (groupBytes new.toNat count (7 * 0)) t := gives
      obtain ⟨daddr, decoded, holds⟩ :=
        daddrGroups_gives positive most (Holds.start new.toNat s.daddr) groups
      rw [Nat.zero_add] at holds
      rw [holds.eq_of_agree agree] at decoded
      exact decoded

/-- `ndata` up to its line, where the next bytes after the address part are those
of `count` bytes of data, as many as the size code says. -/
theorem ndata_run {s middle t : State} (packet : DataPacket s.daddr)
    (header : s.data = packet.header) (address : Gives s packet.addressBytes middle)
    (gives : Gives middle (dataBytes packet.data.toNat packet.size.toNat 0) t) :
    ∃ value, Holds (8 * packet.size.toNat) packet.data.toNat 0#32 value ∧
      ndata s = .ok 0 ((t.setDaddr packet.daddr).print
        (.normalData t.inSync (if packet.size.toNat ≠ 0 then some value else none)
          (if packet.address.isSome then some packet.daddr else none))) := by
  have holds : Holds (8 * 0) packet.data.toNat 0#32 0#32 := Holds.start _ _
  obtain ⟨value, decoded, whole⟩ := wordBytes_gives holds (gives.setDaddr packet.daddr)
  rw [Nat.zero_add] at whole
  refine ⟨value, whole, ?_⟩
  have size := ndataHeader_size packet.address.isSome packet.size
  have hasAddr := ndataHeader_hasAddr packet.address.isSome packet.size
  rw [ndata, read_bind, header, DataPacket.header, size, hasAddr,
    bind_of_ok (daddr_part packet address)]
  exact (bind_of_ok decoded _)

theorem ndata_complete {state after : State} (packet : DataPacket state.daddr)
    (header : state.data = packet.header) (gives : Gives state packet.bytes after)
    (size : packet.size ≠ 3) : packet.Complete state after := by
  have length : dataLength packet.size = packet.size.toNat := if_neg size
  obtain ⟨middle, address, data⟩ := gives.append
  have less := packet.represents
  rw [length] at data less
  obtain ⟨value, holds, run⟩ := ndata_run packet header address data
  have same : value = packet.data := by
    rw [holds.eq_ofNat_of_lt less, BitVec.ofNat_toNat, BitVec.setWidth_eq]
  refine ⟨_, run, rfl, rfl, rfl, ?_⟩
  have zero : packet.size.toNat = 0 ↔ packet.size = 0 := BitVec.toNat_inj (y := 0#2)
  simp only [State.print, State.setDaddr, DataPacket.line, same, DataPacket.daddr, ne_eq, zero,
    ite_not]
  cases packet.address with
  | none => rfl
  | some part => rfl

/-- Three of the four bytes of size code 3 are read. -/
theorem ndata_stops_short {state after : State} (packet : DataPacket state.daddr)
    (header : state.data = packet.header) (gives : Gives state packet.bytes after)
    (size : packet.size = 3) : ¬ packet.Complete state after := by
  have length : dataLength packet.size = 4 := if_pos size
  obtain ⟨middle, address, data⟩ := gives.append
  rw [length] at data
  have parts : dataBytes packet.data.toNat 4 0 =
      dataBytes packet.data.toNat packet.size.toNat 0 ++ dataBytes packet.data.toNat 1 3 := by
    rw [size]
    rfl
  rw [parts] at data
  obtain ⟨third, three, last⟩ := data.append
  obtain ⟨fourth, returned, ended⟩ := last
  cases ended
  obtain ⟨value, _, run⟩ := ndata_run packet header address three
  rintro ⟨final, decoded, _, input, formatter, _⟩
  rw [run] at decoded
  cases decoded
  have less := getByte_left returned
  rw [← input, ← formatter] at less
  exact Nat.lt_irrefl _ less

/-- A packet is decoded completely unless its size code stands for four bytes. -/
theorem ndata_complete_iff {state after : State} (packet : DataPacket state.daddr)
    (header : state.data = packet.header) (gives : Gives state packet.bytes after) :
    (∀ config : Config, config.table = .etm33 →
        (config.typeOf packet.header).decode = some .ndata) ∧
      (packet.Complete state after ↔ packet.size ≠ 3) := by
  refine ⟨fun config table => typeOf_ndataHeader table _ _, ?_, ?_⟩
  · intro complete size
    exact ndata_stops_short packet header gives size complete
  · exact ndata_complete packet header gives

/-- Two bytes of data and two of the address. -/
theorem ndata_complete_two_bytes :
    ∃ (after : State) (packet : DataPacket 0), packet.data = 0x1234 ∧ packet.daddr = 0x81 ∧
      after.input = [0x99] ∧
      packet.Complete { State.start false 0 (packet.bytes ++ [0x99]) with data := 0x2a } after := by
  let packet : DataPacket 0 := ⟨0x1234, 2, some (0x81, 2), by decide, by
    rintro new count found
    cases found
    decide⟩
  let state : State := { State.start false 0 (packet.bytes ++ [0x99]) with data := 0x2a }
  obtain ⟨after, gives, rest⟩ := @gives_plain state packet.bytes [0x99] rfl rfl
  have header : state.data = packet.header := by decide
  have both := @ndata_complete_iff state after packet header gives
  exact ⟨after, packet, rfl, rfl, rest, both.2.mpr (by decide)⟩

/-- Of the four bytes of 0x12345678 one is left, and is taken for the next header. -/
theorem ndata_four_bytes :
    ¬ ∀ (state after : State) (packet : DataPacket state.daddr), state.data = packet.header →
      Gives state packet.bytes after → packet.Complete state after := by
  intro complete
  let packet : DataPacket 0 := ⟨0x12345678, 3, none, by decide, by
    rintro new count found
    cases found⟩
  let state : State := { State.start false 0 packet.bytes with data := 0x0e }
  obtain ⟨after, gives, _⟩ := @gives_plain state packet.bytes [] rfl (List.append_nil _).symm
  have header : state.data = packet.header := by decide
  exact @ndata_stops_short state after packet header gives rfl
    (complete state after packet header gives)

end ImxTest.Etm
