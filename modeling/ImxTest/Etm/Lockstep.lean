import ImxTest.Lib.TwoRuns
import ImxTest.Etm.Decoder

/-!
# Decoding in lockstep

Which bytes a packet takes and which steps it makes depends on the bytes and the
configuration alone.  So two runs on the same bytes make the same steps, and a
relation between their states that every step keeps is kept by whole packets and
by every number of them.  `Lockstep` lists the steps.
-/

set_option autoImplicit false

namespace ImxTest.Etm

open ImxTest.Lib.TwoRuns

def State.feed (state : State) (bytes : List Byte) : State :=
  { state with input := bytes }

namespace State

/-- A part of the state that a view of it shows. -/
theorem field_eq {Value : Type} (view : State → State) (field : State → Value)
    (shown : ∀ state, field (view state) = field state) {s t : State} (same : view s = view t) :
    field s = field t := by
  rw [← shown s, ← shown t, same]

/-- A step that acts on a view of the state alone. -/
theorem view_eq (view : State → State) {change : State → State}
    (alone : ∀ state, view (change state) = view (change (view state))) {s t : State}
    (same : view s = view t) : view (change s) = view (change t) := by
  rw [alone s, alone t, same]

end State

/-- What a relation between two states has to satisfy to be kept by every packet.
The lines printed and the addresses that `getBranchAddr` starts from may differ;
the bytes read may not.  No line shows anything of the input that is left. -/
structure Lockstep (config : Config) (stopped : State → Prop)
    (related : State → State → Prop) : Prop where
  getByte : Keeps stopped related getByte
  data : ∀ {s t}, related s t → s.data = t.data
  timestamp : ∀ {s t}, related s t → s.timestamp = t.timestamp
  printInstruction : ∀ execute {s t}, related s t →
    related (s.printInstruction config execute) (t.printInstruction config execute)
  wait : ∀ count {s t}, related s t → related (s.wait count) (t.wait count)
  print : ∀ (line : State → Line), (∀ state bytes, line (state.feed bytes) = line state) →
    ∀ {s t}, related s t → related (s.print (line s)) (t.print (line t))
  resync : ∀ {s t}, related s t → related s.resync t.resync
  setTimestamp : ∀ new {s t}, related s t → related (s.setTimestamp new) (t.setTimestamp new)
  setDaddrGroup : ∀ i data {s t}, related s t →
    related (s.setDaddrGroup i data) (t.setDaddrGroup i data)
  updateAddr : ∀ ib addr {s t}, related s t →
    related (s.updateAddr ib addr) (t.updateAddr ib addr)
  getBranchAddr : Keeps stopped related (getBranchAddr config)

section Steps
variable {stopped : State → Prop} {related : State → State → Prop}

theorem keeps_read {Value : Type} {field : State → Value}
    (same : ∀ s t, related s t → field s = field t) : Keeps stopped related (read field) := by
  intro s t before
  exact ⟨field t, t, rfl, same s t before, before⟩

theorem keeps_update {change : State → State}
    (kept : ∀ {s t}, related s t → related (change s) (change t)) :
    Keeps stopped related (update change) := by
  intro s t before
  exact ⟨(), change t, rfl, rfl, kept before⟩

theorem keeps_onlyIf {condition : Bool} {body : Decode Unit}
    (kept : Keeps stopped related body) : Keeps stopped related (onlyIf condition body) :=
  Keeps.ite kept (Keeps.pure ())

theorem keeps_readIf {Value : Type} {condition : Bool} {body : Decode Value}
    (kept : Keeps stopped related body) : Keeps stopped related (readIf condition body) := by
  refine Keeps.ite ?_ (Keeps.pure none)
  rw [map_eq_pure_bind]
  exact kept.bind fun value => Keeps.pure (some value)

theorem keeps_repeatDown {body : Decode Unit} (kept : Keeps stopped related body) (count : Nat) :
    Keeps stopped related (repeatDown count body) := by
  induction count with
  | zero => exact Keeps.pure ()
  | succ count ih => exact kept.bind fun _ => ih

/-- `getBranchAddr` for a relation that fixes the address it starts from. -/
theorem keeps_getBranchAddr {config : Config} (getByte : Keeps stopped related getByte)
    (data : ∀ s t, related s t → s.data = t.data)
    (origin : ∀ s t, related s t →
      s.iaddr >>> s.mode.shift = t.iaddr >>> t.mode.shift)
    (printInstruction : ∀ {s t}, related s t →
      related (s.printInstruction config true) (t.printInstruction config true))
    (setMode : ∀ mode {s t}, related s t → related (s.setMode mode) (t.setMode mode))
    (branchTo : ∀ addr validMask {s t}, related s t →
      related (s.branchTo addr validMask) (t.branchTo addr validMask)) :
    Keeps stopped related (getBranchAddr config) := by
  have groups : ∀ left count addr validMask,
      Keeps stopped related (branchGroups config left count addr validMask) := by
    intro left
    induction left with
    | zero => exact fun count addr validMask => Keeps.pure _
    | succ left ih =>
        intro count addr validMask
        refine (keeps_read data).bind fun continued => Keeps.ite ?_ (Keeps.pure _)
        exact getByte.bind fun data => ih _ _ _
  refine (keeps_read origin).bind fun start => ?_
  refine (keeps_read data).bind fun header => ?_
  refine (groups 4 1 _ _).bind fun result => ?_
  refine (keeps_read data).bind fun last => ?_
  refine (keeps_onlyIf (keeps_update printInstruction)).bind fun _ => ?_
  refine (keeps_onlyIf (keeps_update (setMode _))).bind fun _ => ?_
  exact (keeps_update (branchTo _ _)).bind fun _ => Keeps.pure _

end Steps

namespace Lockstep
variable {config : Config} {stopped : State → Prop} {related : State → State → Prop}

section Parts
variable (lock : Lockstep config stopped related)
include lock

theorem keeps_data : Keeps stopped related (read State.data) :=
  keeps_read fun _ _ => lock.data

theorem keeps_print (line : State → Line)
    (blind : ∀ state bytes, line (state.feed bytes) = line state) :
    Keeps stopped related (Etm.print line) :=
  keeps_update (lock.print line blind)

theorem keeps_printInstruction (execute : Bool) :
    Keeps stopped related (Etm.printInstruction config execute) :=
  keeps_update (lock.printInstruction execute)

theorem keeps_wait (count : Int) : Keeps stopped related (update (State.wait count)) :=
  keeps_update (lock.wait count)

/-- A line is printed and `0` returned, which is how most decoders end. -/
theorem keeps_printAndReturn (line : State → Line)
    (blind : ∀ state bytes, line (state.feed bytes) = line state) :
    Keeps stopped related (do Etm.print line; return (0 : Int)) :=
  (lock.keeps_print line blind).bind fun _ => Keeps.pure 0

theorem keeps_wordBytes (left i : Nat) (word : Word) :
    Keeps stopped related (wordBytes left i word) := by
  induction left generalizing i word with
  | zero => exact Keeps.pure word
  | succ left ih => exact lock.getByte.bind fun data => ih (i + 1) _

theorem keeps_countGroups (left shift : Nat) (count : Word) :
    Keeps stopped related (countGroups left shift count) := by
  induction left generalizing shift count with
  | zero => exact Keeps.pure count
  | succ left ih =>
      exact lock.getByte.bind fun data => Keeps.ite (Keeps.pure _) (ih (shift + 7) _)

theorem keeps_timestampGroups (left i : Nat) (timestamp : BitVec 64) :
    Keeps stopped related (timestampGroups left i timestamp) := by
  induction left generalizing i timestamp with
  | zero => exact Keeps.pure timestamp
  | succ left ih =>
      exact lock.getByte.bind fun data => Keeps.ite (Keeps.pure _) (ih (i + 1) _)

theorem keeps_daddrGroups (left i : Nat) : Keeps stopped related (daddrGroups left i) := by
  induction left generalizing i with
  | zero => exact Keeps.pure ()
  | succ left ih =>
      refine lock.getByte.bind fun data => ?_
      refine (keeps_update (lock.setDaddrGroup i data)).bind fun _ => ?_
      exact Keeps.ite (Keeps.pure ()) (ih (i + 1))

theorem keeps_atomBits (i : Nat) (d : Byte) : Keeps stopped related (atomBits config i d) := by
  induction i generalizing d with
  | zero => exact Keeps.pure ()
  | succ i ih => exact (lock.keeps_printInstruction _).bind fun _ => ih (d <<< 1)

theorem keeps_printCount (count : Word) : Keeps stopped related (printCount config count) :=
  (keeps_onlyIf (lock.keeps_print _ fun _ _ => rfl)).bind fun _ =>
    lock.keeps_printAndReturn _ fun _ _ => rfl

theorem keeps_cycleCountPft : Keeps stopped related (cycleCountPft config) := by
  refine lock.keeps_data.bind fun h => ?_
  exact (lock.keeps_countGroups _ 4 _).bind fun count => lock.keeps_printCount count

theorem keeps_thenCycleCount {packet : Decode Int} (kept : Keeps stopped related packet) :
    Keeps stopped related (thenCycleCount config packet) := by
  refine kept.bind fun ret => Keeps.ite ?_ (Keeps.pure ret)
  exact lock.getByte.bind fun _ => lock.keeps_cycleCountPft

theorem keeps_getExceptionData : Keeps stopped related getExceptionData := by
  refine lock.getByte.bind fun first => Keeps.ite ?_ (Keeps.pure _)
  exact lock.getByte.bind fun second => Keeps.pure _

theorem keeps_badPheader : Keeps stopped related badPheader :=
  (keeps_update lock.resync).bind fun _ => lock.keeps_print _ fun _ _ => rfl

end Parts

section Packets
variable (lock : Lockstep config stopped related)
include lock

theorem keeps_branch : Keeps stopped related (branch config) := by
  refine lock.getBranchAddr.bind fun ret => ?_
  refine (keeps_readIf lock.keeps_getExceptionData).bind fun exceptionData => ?_
  exact lock.keeps_printAndReturn _ fun _ _ => rfl

theorem keeps_waypoint : Keeps stopped related (waypoint config) := by
  refine lock.getByte.bind fun _ => ?_
  refine lock.getBranchAddr.bind fun ret => ?_
  exact (keeps_readIf lock.getByte).bind fun ib => lock.keeps_printAndReturn _ fun _ _ => rfl

theorem keeps_timestamp : Keeps stopped related Etm.timestamp := by
  refine Keeps.bind (keeps_read fun _ _ => lock.timestamp) fun old => ?_
  refine lock.keeps_data.bind fun data => ?_
  refine (lock.keeps_timestampGroups 9 0 old).bind fun new => ?_
  refine (lock.keeps_print _ fun _ _ => rfl).bind fun _ => ?_
  exact (keeps_update (lock.setTimestamp new)).bind fun _ => Keeps.pure 0

theorem keeps_ccount : Keeps stopped related (ccount config) :=
  (lock.keeps_countGroups 5 0 0).bind fun count => lock.keeps_printCount count

theorem keeps_ndata : Keeps stopped related ndata := by
  refine lock.keeps_data.bind fun h => ?_
  refine (keeps_onlyIf (lock.keeps_daddrGroups 5 0)).bind fun _ => ?_
  exact (lock.keeps_wordBytes _ 0 0).bind fun data => lock.keeps_printAndReturn _ fun _ _ => rfl

theorem keeps_isync : Keeps stopped related (isync config) := by
  refine (lock.keeps_wordBytes _ 0 0).bind fun contextid => ?_
  refine lock.getByte.bind fun ib => ?_
  refine (lock.keeps_wordBytes 4 0 0).bind fun addr => ?_
  exact (keeps_update (lock.updateAddr ib addr)).bind fun _ =>
    lock.keeps_printAndReturn _ fun _ _ => rfl

theorem keeps_isyncPft : Keeps stopped related (isyncPft config) := by
  refine (lock.keeps_wordBytes 4 0 0).bind fun addr => ?_
  refine lock.getByte.bind fun ib => ?_
  refine (keeps_update (lock.updateAddr ib addr)).bind fun _ => ?_
  refine (keeps_onlyIf ?_).bind fun _ => ?_
  · refine lock.getByte.bind fun _ => ?_
    exact lock.keeps_cycleCountPft.bind fun _ => Keeps.pure ()
  · exact (lock.keeps_wordBytes _ 0 0).bind fun contextid =>
      lock.keeps_printAndReturn _ fun _ _ => rfl

theorem keeps_pheaderCycles (data : Byte) :
    Keeps stopped related (pheaderCycles config data) := by
  have waitAndPrint : ∀ execute, Keeps stopped related (do
      update (State.wait 1)
      Etm.printInstruction config execute) :=
    fun execute => (lock.keeps_wait 1).bind fun _ => lock.keeps_printInstruction execute
  refine Keeps.ite (lock.keeps_wait 1)
    (Keeps.ite ?_ (Keeps.ite ?_ (Keeps.ite ?_ (Keeps.ite ?_ ?_))))
  · exact (keeps_repeatDown (waitAndPrint true) _).bind fun _ =>
      keeps_repeatDown (waitAndPrint false) _
  · refine (lock.keeps_wait 1).bind fun _ => ?_
    exact (lock.keeps_printInstruction _).bind fun _ => lock.keeps_printInstruction _
  · exact (lock.keeps_wait _).bind fun _ =>
      keeps_repeatDown (lock.keeps_printInstruction true) _
  · exact lock.keeps_printInstruction _
  · exact lock.keeps_badPheader

theorem keeps_pheaderInstructions (data : Byte) :
    Keeps stopped related (pheaderInstructions config data) := by
  refine Keeps.ite ?_ (Keeps.ite ?_ lock.keeps_badPheader)
  · exact (keeps_repeatDown (lock.keeps_printInstruction true) _).bind fun _ =>
      keeps_onlyIf (lock.keeps_printInstruction false)
  · exact (lock.keeps_printInstruction _).bind fun _ => lock.keeps_printInstruction _

theorem keeps_pheader : Keeps stopped related (pheader config) := by
  refine Keeps.ite ?_ ?_
  · refine lock.keeps_data.bind fun data => ?_
    exact (lock.keeps_pheaderCycles data).bind fun _ => Keeps.pure 0
  · refine lock.keeps_data.bind fun data => ?_
    exact (lock.keeps_pheaderInstructions data).bind fun _ => Keeps.pure 0

theorem keeps_atom : Keeps stopped related (atom config) := by
  refine Keeps.ite ?_ ?_
  · refine lock.keeps_data.bind fun h => ?_
    refine lock.keeps_cycleCountPft.bind fun _ => ?_
    exact (lock.keeps_printInstruction _).bind fun _ => Keeps.pure 0
  · refine lock.keeps_data.bind fun data => ?_
    exact (lock.keeps_atomBits _ _).bind fun _ => Keeps.pure 0

theorem keeps_decode (decoder : Decoder) : Keeps stopped related (decode config decoder) := by
  cases decoder with
  | branch => exact lock.keeps_branch
  | async => exact Keeps.pure 0
  | ccount => exact lock.keeps_ccount
  | isync => exact lock.keeps_isync
  | isynccc => exact lock.keeps_ccount.bind fun _ => lock.keeps_isync
  | vmid => exact lock.getByte.bind fun vmid => lock.keeps_printAndReturn _ fun _ _ => rfl
  | ndata => exact lock.keeps_ndata
  | timestamp => exact lock.keeps_timestamp
  | ignore => exact Keeps.pure 0
  | contextid =>
      exact (lock.keeps_wordBytes _ 0 0).bind fun id =>
        lock.keeps_printAndReturn _ fun _ _ => rfl
  | pheader => exact lock.keeps_pheader
  | isyncPft => exact lock.keeps_isyncPft
  | atom => exact lock.keeps_atom
  | branchPft => exact lock.keeps_thenCycleCount lock.keeps_branch
  | waypoint => exact lock.keeps_waypoint
  | trigger => exact lock.keeps_printAndReturn _ fun _ _ => rfl
  | timestampPft => exact lock.keeps_thenCycleCount lock.keeps_timestamp
  | exceptRet => exact lock.keeps_printAndReturn _ fun _ _ => rfl

theorem keeps_handle (ch : Byte) : Keeps stopped related (handle config ch) := by
  unfold handle
  cases (config.typeOf ch).decode with
  | some decoder => exact (lock.keeps_decode decoder).bind fun _ => Keeps.pure ()
  | none => exact (keeps_update lock.resync).bind fun _ => lock.keeps_print _ fun _ _ => rfl

theorem keeps_packet : Keeps stopped related (packet config) :=
  lock.getByte.bind lock.keeps_handle

theorem keeps_packets (count : Nat) : Keeps stopped related (packets config count) :=
  keeps_repeatDown lock.keeps_packet count

end Packets
end Lockstep
end ImxTest.Etm
