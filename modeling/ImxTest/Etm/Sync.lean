import Mathlib.Data.List.Induction
import ImxTest.Lib.Watch
import ImxTest.Etm.Lockstep

/-!
# When `get_byte` declares synchronisation

`sync` counts zero bytes from 0 down to -4 and becomes 1 at the next one.  A
byte that is not zero leaves the count as it is; only an unhandled packet and a
bad P-header set it back.  So the five zero bytes need not follow one another.
-/

set_option autoImplicit false

namespace ImxTest.Etm

open ImxTest.Lib.TwoRuns ImxTest.Lib.Watch

namespace Entry

def returned (log : List Entry) : List Byte :=
  log.filterMap fun
    | .byte ch _ _ => some ch
    | _ => none

/-- `get_byte` changes `sync` from a value that is not positive to 1. -/
def Declares : Entry → Prop
  | .byte _ before after => before ≤ 0 ∧ after = 1
  | _ => False

/-- A zero byte comes while four are counted. -/
def Completes : Entry → Prop
  | .byte ch before _ => ch = 0 ∧ before = -4
  | _ => False

/-- A byte that is not zero comes while zero bytes are being counted. -/
def Interrupts : Entry → Prop
  | .byte ch before _ => ch ≠ 0 ∧ before < 0
  | _ => False

def Resets : Entry → Prop
  | .resync => True
  | _ => False

instance : DecidablePred Interrupts := fun entry => by
  unfold Interrupts
  cases entry <;> infer_instance

instance : DecidablePred Resets := fun entry => by
  unfold Resets
  cases entry <;> infer_instance

end Entry

open Entry

def OnlyOnAsync (log : List Entry) : Prop :=
  Everywhere (fun earlier entry => Declares entry →
    List.replicate 5 0 <:+ returned (earlier ++ [entry])) log

/-! ## The log follows the count -/

def syncStep (sync : Int) : Entry → Int
  | .byte _ _ after => after
  | .resync => 0
  | .instruction _ => sync
  | .line _ => sync

def syncAfter (log : List Entry) : Int :=
  log.foldl syncStep 0

/-- Every byte is logged with the count before it and what `get_byte` makes of it. -/
def Counted (log : List Entry) : Prop :=
  Everywhere (fun earlier entry => ∀ ch before after, entry = .byte ch before after →
    before = syncAfter earlier ∧ after = State.countZero before ch) log

def State.Counting (state : State) : Prop :=
  Counted state.log ∧ state.sync = syncAfter state.log

theorem syncAfter_snoc (log : List Entry) (entry : Entry) :
    syncAfter (log ++ [entry]) = syncStep (syncAfter log) entry := by
  rw [syncAfter, List.foldl_append]
  rfl

namespace State

theorem Counting.append {state other : State} {entry : Entry} (counting : state.Counting)
    (log : other.log = state.log ++ [entry]) (sync : other.sync = syncStep state.sync entry)
    (good : ∀ ch before after, entry = .byte ch before after →
      before = state.sync ∧ after = countZero before ch) : other.Counting := by
  obtain ⟨counted, same⟩ := counting
  rw [same] at sync good
  rw [Counting, log, syncAfter_snoc]
  exact ⟨everywhere_snoc.mpr ⟨counted, good⟩, sync⟩

theorem Counting.receive {state : State} (counting : state.Counting) (ch : Byte) :
    (state.receive ch).Counting := by
  refine counting.append rfl rfl ?_
  intro ch' before after same
  cases same
  exact ⟨rfl, rfl⟩

theorem Counting.line {state : State} (counting : state.Counting) (line : Line) :
    (state.print line).Counting :=
  counting.append rfl rfl nofun

theorem Counting.resync {state : State} (counting : state.Counting) : state.resync.Counting :=
  counting.append rfl rfl nofun

/-- What touches neither the log nor the count. -/
theorem Counting.of_eq {state other : State} (counting : state.Counting)
    (log : other.log = state.log) (sync : other.sync = state.sync) : other.Counting := by
  rw [Counting, log, sync]
  exact counting

theorem Counting.printInstruction {state : State} (counting : state.Counting) (config : Config)
    (execute : Bool) : (state.printInstruction config execute).Counting := by
  unfold State.printInstruction
  dsimp only
  split
  · have waited : (state.print .longWait).Counting := counting.line _
    exact waited.append rfl rfl nofun
  · rw [List.append_nil]
    exact counting.append rfl rfl nofun

end State

/-- The decoder keeps the log and the count together, at every `exit` too. -/
theorem lockstep_counting (config : Config) :
    Lockstep config State.Counting (fun s t => s = t ∧ s.Counting) := by
  have getByte : Keeps State.Counting (fun s t => s = t ∧ s.Counting) getByte := by
    rintro state _ ⟨rfl, counting⟩
    unfold Etm.getByte
    cases takeByte state.useFormatter state.formatter state.input with
    | none =>
        dsimp only
        split
        · exact counting.line _
        · exact counting
    | some found =>
        obtain ⟨ch, formatter, input⟩ := found
        have same : (state.advance formatter input).Counting := counting.of_eq rfl rfl
        exact ⟨ch, _, rfl, rfl, rfl, same.receive ch⟩
  have kept : ∀ (change : State → State), (∀ state, (change state).log = state.log) →
      (∀ state, (change state).sync = state.sync) → ∀ {s t : State}, s = t ∧ s.Counting →
        change s = change t ∧ (change s).Counting := by
    rintro change log sync s _ ⟨rfl, counting⟩
    exact ⟨rfl, counting.of_eq (log s) (sync s)⟩
  have printed : ∀ execute {s t : State}, s = t ∧ s.Counting →
      s.printInstruction config execute = t.printInstruction config execute ∧
        (s.printInstruction config execute).Counting := by
    rintro execute s _ ⟨rfl, counting⟩
    exact ⟨rfl, counting.printInstruction config execute⟩
  exact {
    getByte := getByte
    data := by rintro s _ ⟨rfl, _⟩; rfl
    timestamp := by rintro s _ ⟨rfl, _⟩; rfl
    printInstruction := printed
    wait := fun count => kept (State.wait count) (fun _ => rfl) (fun _ => rfl)
    print := by
      rintro line _ s _ ⟨rfl, counting⟩
      exact ⟨rfl, counting.line _⟩
    resync := by
      rintro s _ ⟨rfl, counting⟩
      exact ⟨rfl, counting.resync⟩
    setTimestamp := fun new => kept (State.setTimestamp new) (fun _ => rfl) (fun _ => rfl)
    setDaddrGroup := fun i data =>
      kept (State.setDaddrGroup i data) (fun _ => rfl) (fun _ => rfl)
    updateAddr := fun ib addr => kept (State.updateAddr ib addr) (fun _ => rfl) (fun _ => rfl)
    getBranchAddr := keeps_getBranchAddr getByte
      (by rintro s _ ⟨rfl, _⟩; rfl) (by rintro s _ ⟨rfl, _⟩; rfl) (printed true)
      (fun mode => kept (State.setMode mode) (fun _ => rfl) (fun _ => rfl))
      (fun addr validMask =>
        kept (State.branchTo addr validMask) (fun _ => rfl) (fun _ => rfl)) }

theorem counting_packets (config : Config) (count : Nat) {state : State}
    (counting : state.Counting) : (stateOf (packets config count state)).Counting := by
  have kept := (lockstep_counting config).keeps_packets count
  cases run : packets config count state with
  | ok _ final =>
      obtain ⟨_, _, _, after⟩ := kept.returns ⟨rfl, counting⟩ run
      exact after
  | error _ final => exact Sim.stops kept ⟨rfl, counting⟩ run

/-! ## The zero bytes behind the count -/

theorem returned_snoc (log : List Entry) (entry : Entry) :
    returned (log ++ [entry]) =
      match entry with
      | .byte ch _ _ => returned log ++ [ch]
      | _ => returned log := by
  rw [returned, List.filterMap_append]
  cases entry with
  | byte ch before after => rfl
  | resync => exact List.append_nil _
  | instruction instruction => exact List.append_nil _
  | line line => exact List.append_nil _

theorem zeros_suffix_snoc (zeros : Nat) (bytes : List Byte) (ch : Byte) :
    List.replicate (zeros + 1) 0 <:+ bytes ++ [ch] ↔
      ch = 0 ∧ List.replicate zeros 0 <:+ bytes := by
  rw [List.replicate_succ']
  constructor
  · rintro ⟨front, same⟩
    rw [← List.append_assoc] at same
    obtain ⟨rfl, last⟩ := List.append_inj' same rfl
    exact ⟨(List.singleton_inj.mp last).symm, front, rfl⟩
  · rintro ⟨rfl, front, rfl⟩
    exact ⟨front, (List.append_assoc _ _ _).symm⟩

def interrupted (log : List Entry) : Bool :=
  armedAfter Interrupts Resets false log

theorem interrupted_snoc (log : List Entry) (entry : Entry) :
    interrupted (log ++ [entry]) =
      if Interrupts entry then true else if Resets entry then false else interrupted log :=
  armedAfter_snoc false log entry

/-- The count is that of the last bytes exactly when nothing has interrupted it. -/
structure CountsZeros (log : List Entry) : Prop where
  range : -4 ≤ syncAfter log ∧ syncAfter log ≤ 1
  zeros : ∀ zeros : Nat, syncAfter log = -zeros →
    (List.replicate zeros 0 <:+ returned log ↔ interrupted log = false)

theorem CountsZeros.snoc_byte {log : List Entry} (counts : CountsZeros log) (ch : Byte) :
    CountsZeros
      (log ++ [.byte ch (syncAfter log) (State.countZero (syncAfter log) ch)]) := by
  obtain ⟨⟨lower, upper⟩, zeros⟩ := counts
  refine ⟨?_, ?_⟩
  · rw [syncAfter_snoc, syncStep, State.countZero]
    split
    · split
      · omega
      · omega
    · omega
  · intro count same
    rw [syncAfter_snoc, syncStep, State.countZero] at same
    rw [returned_snoc, interrupted_snoc]
    have noReset : ¬ Resets (.byte ch (syncAfter log) (State.countZero (syncAfter log) ch)) :=
      fun reset => reset
    rw [if_neg noReset]
    by_cases zero : ch = 0
    · have calm : ¬ Interrupts
          (.byte ch (syncAfter log) (State.countZero (syncAfter log) ch)) :=
        fun interrupts => interrupts.1 zero
      have low : syncAfter log ≤ 0 := by
        by_contra high
        rw [if_neg (fun both => high both.2)] at same
        omega
      rw [if_neg calm]
      rw [if_pos ⟨zero, low⟩] at same
      split at same
      · omega
      · obtain ⟨before, rfl⟩ : ∃ before, count = before + 1 := ⟨count - 1, by omega⟩
        rw [zeros_suffix_snoc, zeros before (by omega), and_iff_right zero]
    · rw [if_neg (fun both => zero both.1)] at same
      cases count with
      | zero =>
          have calm : ¬ Interrupts
              (.byte ch (syncAfter log) (State.countZero (syncAfter log) ch)) := by
            intro interrupts
            have negative := interrupts.2
            omega
          rw [if_neg calm, ← zeros 0 same]
          simp
      | succ before =>
          have interrupts : Interrupts
              (.byte ch (syncAfter log) (State.countZero (syncAfter log) ch)) :=
            ⟨zero, by omega⟩
          rw [if_pos interrupts, zeros_suffix_snoc]
          exact iff_of_false (fun both => zero both.1) (by simp)

theorem Counted.countsZeros {log : List Entry} (counted : Counted log) : CountsZeros log := by
  induction log using List.reverseRecOn with
  | nil =>
      refine ⟨by decide, ?_⟩
      intro zeros same
      have none : (0 : Int) = -zeros := same
      obtain rfl : zeros = 0 := by omega
      exact iff_of_true List.nil_suffix rfl
  | append_singleton log entry ih =>
      obtain ⟨earlier, last⟩ := everywhere_snoc.mp counted
      have counts := ih earlier
      cases entry with
      | byte ch before after =>
          obtain ⟨rfl, rfl⟩ := last ch before after rfl
          exact counts.snoc_byte ch
      | resync =>
          refine ⟨by rw [syncAfter_snoc, syncStep]; decide, ?_⟩
          intro zeros same
          rw [syncAfter_snoc, syncStep] at same
          obtain rfl : zeros = 0 := by omega
          exact iff_of_true List.nil_suffix (interrupted_snoc log .resync)
      | instruction instruction =>
          refine ⟨by rw [syncAfter_snoc]; exact counts.range, ?_⟩
          rw [syncAfter_snoc, returned_snoc, interrupted_snoc]
          exact counts.zeros
      | line line =>
          refine ⟨by rw [syncAfter_snoc]; exact counts.range, ?_⟩
          rw [syncAfter_snoc, returned_snoc, interrupted_snoc]
          exact counts.zeros

theorem declares_iff_completes (ch : Byte) (sync : Int) :
    Declares (.byte ch sync (State.countZero sync ch)) ↔
      Completes (.byte ch sync (State.countZero sync ch)) := by
  constructor
  · rintro ⟨low, one⟩
    unfold State.countZero at one
    split at one
    · next counted =>
        split at one
        · next fourth => exact ⟨counted.1, fourth⟩
        · omega
    · omega
  · rintro ⟨rfl, rfl⟩
    exact ⟨by decide, by decide⟩

theorem onlyOnAsync_iff {log : List Entry} (counted : Counted log) :
    OnlyOnAsync log ↔ NoneUntil Interrupts Resets Completes log := by
  induction log using List.reverseRecOn with
  | nil => exact iff_of_true everywhere_nil noneUntil_nil
  | append_singleton log entry ih =>
      obtain ⟨earlier, last⟩ := everywhere_snoc.mp counted
      rw [OnlyOnAsync, everywhere_snoc, noneUntil_snoc, ← ih earlier]
      refine and_congr_right fun _ => ?_
      cases entry with
      | byte ch before after =>
          obtain ⟨rfl, rfl⟩ := last ch before after rfl
          rw [declares_iff_completes]
          by_cases completes :
              Completes (.byte ch (syncAfter log) (State.countZero (syncAfter log) ch))
          · obtain ⟨zero, fourth⟩ := completes
            have zeros := (Counted.countsZeros earlier).zeros 4 (by rw [fourth]; rfl)
            have last : List.replicate 5 0 <:+ returned log ++ [ch] ↔
                interrupted log = false := by
              rw [zeros_suffix_snoc, zeros, and_iff_right zero]
            rw [returned_snoc, last, interrupted]
            simp [Completes, zero, fourth]
          · simp [completes]
      | resync => simp [Declares, Completes]
      | instruction instruction => simp [Declares, Completes]
      | line line => simp [Declares, Completes]

theorem sync_onlyOnAsync_iff (config : Config) (useFormatter : Bool) (sourceidMatch : Word)
    (input : List Byte) (count : Nat) :
    let final := stateOf (packets config count (State.start useFormatter sourceidMatch input))
    OnlyOnAsync final.log ↔ NoneUntil Interrupts Resets Completes final.log := by
  have atStart : (State.start useFormatter sourceidMatch input).Counting :=
    ⟨everywhere_nil, rfl⟩
  exact onlyOnAsync_iff (counting_packets config count atStart).1

/-- Zero bytes with an `Ignore` packet between any two of them. -/
def scatteredZeros : List Byte :=
  [0x00, 0x66, 0x00, 0x66, 0x00, 0x66, 0x00, 0x66, 0x00]

theorem sync_on_scattered_zeros :
    ¬ OnlyOnAsync
      (stateOf (packets defaultEtm33 9 (State.start false 0 scatteredZeros))).log := by
  have log : (stateOf (packets defaultEtm33 9 (State.start false 0 scatteredZeros))).log =
      [Entry.byte 0x00 0 (-1), Entry.byte 0x66 (-1) (-1), Entry.byte 0x00 (-1) (-2),
        Entry.byte 0x66 (-2) (-2), Entry.byte 0x00 (-2) (-3), Entry.byte 0x66 (-3) (-3),
        Entry.byte 0x00 (-3) (-4), Entry.byte 0x66 (-4) (-4)] ++ [Entry.byte 0x00 (-4) 1] := by
    decide +kernel
  rw [log]
  intro holds
  have last := holds _ (.byte 0x00 (-4) 1) [] rfl ⟨by decide, rfl⟩
  revert last
  decide

end ImxTest.Etm
