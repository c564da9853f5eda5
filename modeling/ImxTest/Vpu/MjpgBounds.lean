import Mathlib.Algebra.Order.Ring.Int
import ImxTest.Vpu.Mjpg

/-!
# Where the motion JPEG chunker stores

`mjpg_read_chunk_till_soi` reads on until it finds a marker and looks at the size of
neither buffer.  What it holds is what has come since the last marker, so it is the
distance of the markers in the stream that keeps the stores inside the buffers.

Here the chunker runs without a check, and every store is noted with its index.
-/

set_option autoImplicit false

namespace ImxTest.Vpu.MjpgBounds

open ImxTest.Vpu.Mjpg

/-! ## The chunker and its stores -/

/-- `count` bytes from `index` on, in one of the two buffers of `STREAM_BUF_SIZE` bytes. -/
inductive Store where
  | cachedBsbuf (index count : Nat)
  | virtBsbuf (index count : Nat)
  deriving DecidableEq, Repr

def Store.Inside : Store → Prop
  | .cachedBsbuf index count => ∀ i < count, index + i < streamBufSize
  | .virtBsbuf index count => ∀ i < count, index + i < streamBufSize

/-- How the refill leaves the loop, or goes on, with the stores it makes. -/
structure RefillOut where
  leaves : Option Int
  state : MjpgState
  source : List ReadResult
  stores : List Store

def refillOpen (state : MjpgState) (source : List ReadResult) : RefillOut :=
  if state.rdPtr ≠ state.buf.length then ⟨none, state, source, []⟩
  else
    let (result, source) := scriptedRead.read source mjpgFillSize
    let wrPtr := state.buf.length
    let stored := Store.cachedBsbuf wrPtr result.bytes.length
    if result.nread < 0 then ⟨some (-1), state, source, [stored]⟩
    else if result.nread = 0 then
      if state.eof then ⟨some 0, state, source, [stored]⟩
      -- pad soi
      else
        ⟨none, { state with buf := state.buf ++ [0xFF, 0xD8], eof := true }, source,
          [stored, .cachedBsbuf wrPtr 1, .cachedBsbuf (wrPtr + 1) 1]⟩
    else ⟨none, { state with buf := state.buf ++ result.bytes }, source, [stored]⟩

structure OpenOut where
  /-- `none` while the call goes on. -/
  ret : Option Int
  state : MjpgState
  source : List ReadResult
  stores : List Store

/-- `fuel` turns of the loop. -/
def tillSoiOpen : (fuel : Nat) → MjpgState → List ReadResult → OpenOut
  | 0, state, source => ⟨none, state, source, []⟩
  | fuel + 1, state, source =>
      let refilled := refillOpen state source
      match refilled.leaves with
      | some ret => ⟨some ret, refilled.state, refilled.source, refilled.stores⟩
      | none =>
          let state := refilled.state
          let (scState, pos) := mjpgSeekSoi state.scState (state.buf.drop state.rdPtr)
          if pos < 0 then
            let out := tillSoiOpen fuel
              { state with scState := scState, rdPtr := state.buf.length } refilled.source
            { out with stores := refilled.stores ++ out.stores }
          else
            let rdPtr := state.rdPtr + pos.toNat
            -- the size of the copy is unsigned
            let copied := (rdPtr + (2 ^ 32 - 2)) % 2 ^ 32
            ⟨some rdPtr, state.chunkRead scState rdPtr, refilled.source,
              refilled.stores ++ [.virtBsbuf 0 copied]⟩

/-- The stores of calls of `mjpg_read_chunk_till_soi`, one after the other, up to the call
that is still going on after its turns. -/
def callStores : (turns : List Nat) → MjpgState → List ReadResult → List Store
  | [], _, _ => []
  | turns :: later, state, source =>
      let out := tillSoiOpen turns (compact state) source
      if out.ret = none then out.stores
      else out.stores ++ callStores later out.state out.source

/-! ## What the buffer holds -/

/-- One byte of the stream: the scanner's state, and the bytes since the start of the last
marker, or of the stream. -/
def heldStep (held : Nat × Nat) (byte : Byte) : Nat × Nat :=
  if held.1 = 1 ∧ byte = 0xD8 then (2, 2) else (scStep held.1 byte, held.2 + 1)

def heldAfter (held : Nat × Nat) (bytes : List Byte) : Nat × Nat := bytes.foldl heldStep held

/-- The marker that the next call keeps when one has failed. -/
def heldAnew (held : Nat × Nat) : Nat × Nat := (held.1, min held.2 2)

/-- Before each read, the bytes held and those that the read delivers are together at most
`STREAM_BUF_SIZE`, and so are the bytes held at the end and the marker behind them. -/
def CacheFits : (held : Nat × Nat) → (eof : Bool) → List ReadResult → Prop
  | held, eof, [] => eof = true ∨ held.2 + 2 ≤ streamBufSize
  | held, eof, answer :: rest =>
      let result := (scriptedRead.read (answer :: rest) mjpgFillSize).1
      held.2 + result.bytes.length ≤ streamBufSize ∧
        if result.nread < 0 then CacheFits (heldAnew held) eof rest
        else if result.nread = 0 then
          if eof then CacheFits (heldAnew held) eof rest
          else held.2 + 2 ≤ streamBufSize ∧ CacheFits (2, 2) true rest
        else CacheFits (heldAfter held result.bytes) eof rest

/-- The scanner at work on some bytes: it takes all of them, or stops behind a marker. -/
theorem seekLoop_held (scState held : Nat) (bytes : List Byte) (nonempty : bytes ≠ []) :
    (∃ after, seekLoop scState bytes = (after, bytes.length) ∧ after ≠ 2 ∧
      heldAfter (scState, held) bytes = (after, held + bytes.length)) ∨
    (∃ count, seekLoop scState bytes = (2, count) ∧ 0 < count ∧ count ≤ bytes.length ∧
      ((scState = 1 → 0 < held) → 2 ≤ held + count) ∧
      heldAfter (scState, held) bytes = heldAfter (2, 2) (bytes.drop count)) := by
  induction bytes generalizing scState held with
  | nil => exact absurd rfl nonempty
  | cons byte rest ih =>
      by_cases found : scState = 1 ∧ byte = 0xD8
      · refine .inr ⟨1, by simp [seekLoop, found], by simp, by simp, ?_, ?_⟩
        · intro some
          have positive := some found.1
          omega
        · simp [heldAfter, heldStep, found]
      · have step : seekLoop scState (byte :: rest) =
            ((seekLoop (scStep scState byte) rest).1,
              (seekLoop (scStep scState byte) rest).2 + 1) := by
          rw [seekLoop, if_neg found]
        have heldStep' : heldAfter (scState, held) (byte :: rest) =
            heldAfter (scStep scState byte, held + 1) rest := by
          simp only [heldAfter, List.foldl_cons, heldStep, if_neg found]
        by_cases last : rest = []
        · subst last
          exact .inl ⟨scStep scState byte, step, scStep_ne scState byte found, heldStep'⟩
        · rcases ih (scStep scState byte) (held + 1) last with
            ⟨after, seek, ne, scans⟩ | ⟨count, seek, -, inside, enough, scans⟩
          · refine .inl ⟨after, by rw [step, seek]; rfl, ne, ?_⟩
            rw [heldStep', scans, List.length_cons, Nat.add_right_comm, Nat.add_assoc]
          · refine .inr ⟨count + 1, by rw [step, seek], by omega, by simpa using inside, ?_, ?_⟩
            · intro _
              have two := enough fun _ => Nat.succ_pos held
              omega
            · rw [heldStep', scans, List.drop_succ_cons]

/-! ## The stores of all calls -/

def AllInside (stores : List Store) : Prop := ∀ store ∈ stores, store.Inside

def callFrom (turns : Nat) (later : List Nat) (state : MjpgState) (source : List ReadResult) :
    List Store :=
  let out := tillSoiOpen turns state source
  if out.ret = none then out.stores else out.stores ++ callStores later out.state out.source

/-- However many turns and calls follow, all stores are inside. -/
def Safe (state : MjpgState) (source : List ReadResult) : Prop :=
  ∀ turns later, AllInside (callFrom turns later state source)

theorem callStores_cons (turns : Nat) (later : List Nat) (state : MjpgState)
    (source : List ReadResult) :
    callStores (turns :: later) state source = callFrom turns later (compact state) source := rfl

theorem callFrom_zero (later : List Nat) (state : MjpgState) (source : List ReadResult) :
    AllInside (callFrom 0 later state source) :=
  fun _ member => absurd member List.not_mem_nil

theorem allInside_append {first second : List Store} :
    AllInside (first ++ second) ↔ AllInside first ∧ AllInside second :=
  List.forall_mem_append

section Turns
variable {state next : MjpgState} {source rest : List ReadResult} {stores : List Store}

/-- A turn makes its stores, and the rest follows. -/
theorem safe_iff_turn {tail : Nat → List Nat → List Store}
    (turn : ∀ turns later, callFrom (turns + 1) later state source = stores ++ tail turns later) :
    Safe state source ↔ AllInside stores ∧ ∀ turns later, AllInside (tail turns later) := by
  have split (turns : Nat) (later : List Nat) :
      AllInside (callFrom (turns + 1) later state source) ↔
        AllInside stores ∧ AllInside (tail turns later) := by
    rw [turn, allInside_append]
  constructor
  · intro safe
    exact ⟨((split 0 []).mp (safe 1 [])).1,
      fun turns later => ((split turns later).mp (safe (turns + 1) later)).2⟩
  · rintro ⟨first, rest⟩ turns later
    cases turns with
    | zero => exact callFrom_zero later state source
    | succ turns => exact (split turns later).mpr ⟨first, rest turns later⟩

/-- A turn that ends the call. -/
theorem safe_iff_returns
    (turn : ∀ turns later, callFrom (turns + 1) later state source =
      stores ++ callStores later next rest) :
    Safe state source ↔ AllInside stores ∧ Safe (compact next) rest := by
  rw [safe_iff_turn turn]
  refine and_congr_right fun _ => ⟨?_, ?_⟩
  · intro all turns later
    exact callStores_cons turns later next rest ▸ all 0 (turns :: later)
  · intro safe _ later
    cases later with
    | nil => exact fun _ member => absurd member List.not_mem_nil
    | cons turns later => exact callStores_cons turns later next rest ▸ safe turns later

/-- A turn that goes on to the next. -/
theorem safe_iff_goes_on
    (turn : ∀ turns later, callFrom (turns + 1) later state source =
      stores ++ callFrom turns later next rest) :
    Safe state source ↔ AllInside stores ∧ Safe next rest :=
  safe_iff_turn turn

/-- A refill that the turn goes on from. -/
theorem safe_iff_refills
    (turn : ∀ turns later, callFrom (turns + 1) later state source =
      stores ++ callFrom (turns + 1) later next rest) :
    Safe state source ↔ AllInside stores ∧ Safe next rest := by
  rw [safe_iff_turn turn]
  refine and_congr_right fun _ => ⟨?_, fun safe turns later => safe (turns + 1) later⟩
  intro all turns later
  cases turns with
  | zero => exact callFrom_zero later next rest
  | succ turns => exact all turns later

end Turns

/-! ## One turn -/

section OneTurn
variable {state : MjpgState} {source : List ReadResult}

theorem refillOpen_scans (unscanned : state.rdPtr < state.buf.length) :
    refillOpen state source = ⟨none, state, source, []⟩ := by
  rw [refillOpen, if_pos (by omega)]

theorem safe_scans_all (unscanned : state.rdPtr < state.buf.length) {after : Nat}
    (seek : seekLoop state.scState (state.buf.drop state.rdPtr) =
      (after, (state.buf.drop state.rdPtr).length)) (other : after ≠ 2) :
    Safe state source ↔
      Safe { state with scState := after, rdPtr := state.buf.length } source := by
  have turn : ∀ turns later, callFrom (turns + 1) later state source =
      [] ++ callFrom turns later { state with scState := after, rdPtr := state.buf.length }
        source := by
    intro turns later
    have missing : (-1 : Int) < 0 := by decide
    simp only [callFrom, tillSoiOpen, refillOpen_scans unscanned, mjpgSeekSoi, seek, if_neg other,
      if_pos missing, List.nil_append]
  rw [safe_iff_goes_on turn]
  simp [AllInside]

theorem safe_finds (unscanned : state.rdPtr < state.buf.length) {count : Nat}
    (seek : seekLoop state.scState (state.buf.drop state.rdPtr) = (2, count))
    (inside : state.rdPtr + count ≤ state.buf.length) (two : 2 ≤ state.rdPtr + count)
    (fits : state.buf.length ≤ streamBufSize) :
    Safe state source ↔
      Safe { state with
        scState := 2
        rdPtr := 2
        buf := state.buf.drop (state.rdPtr + count - 2)
        bsbuf := (state.chunkRead 2 (state.rdPtr + count)).bsbuf } source := by
  have turn : ∀ turns later, callFrom (turns + 1) later state source =
      [.virtBsbuf 0 ((state.rdPtr + count + (2 ^ 32 - 2)) % 2 ^ 32)] ++
        callStores later (state.chunkRead 2 (state.rdPtr + count)) source := by
    intro turns later
    have present : ¬ (count : Int) < 0 := by omega
    simp only [callFrom, tillSoiOpen, refillOpen_scans unscanned, mjpgSeekSoi, seek, if_true,
      Int.toNat_natCast, if_neg present, List.nil_append]
    rfl
  have copied : (state.rdPtr + count + (2 ^ 32 - 2)) % 2 ^ 32 = state.rdPtr + count - 2 := by
    unfold streamBufSize at fits
    omega
  have kept := compact_eq (state.chunkRead 2 (state.rdPtr + count)) (state.rdPtr + count - 2)
    (show state.rdPtr + count = _ by omega)
  rw [safe_iff_returns turn, kept, copied]
  refine and_iff_right ?_
  intro store member
  obtain rfl := List.mem_singleton.mp member
  intro i below
  omega

end OneTurn

/-! ## The condition is exact -/

/-- A state that a turn can begin with. -/
structure Ready (state : MjpgState) : Prop where
  inside : state.rdPtr ≤ state.buf.length
  scanning : state.scState ≤ 2
  started : state.scState = 1 → 0 < state.rdPtr
  fits : state.buf.length ≤ streamBufSize

def heldOf (state : MjpgState) : Nat × Nat :=
  heldAfter (state.scState, state.rdPtr) (state.buf.drop state.rdPtr)

/-- The condition is exact for the states with this flag that wait for a refill. -/
def ExactAtRefill (eof : Bool) (source : List ReadResult) : Prop :=
  ∀ state, Ready state → state.eof = eof → state.rdPtr = state.buf.length →
    (Safe state source ↔ CacheFits (state.scState, state.rdPtr) eof source)

theorem scStep_le {scState : Nat} (scanning : scState ≤ 2) (byte : Byte) :
    scStep scState byte ≤ 2 := by
  unfold scStep
  split
  · split <;> decide
  · split
    · decide
    · split <;> decide
  · split <;> decide
  · assumption

theorem heldAfter_scanning {held : Nat × Nat} (scanning : held.1 ≤ 2) (bytes : List Byte) :
    (heldAfter held bytes).1 ≤ 2 := by
  induction bytes generalizing held with
  | nil => exact scanning
  | cons byte bytes ih =>
      apply ih
      unfold heldStep
      split
      · decide
      · exact scStep_le scanning byte

/-- From the states that wait for a refill to those with bytes to scan, by the number of
these bytes. -/
theorem safe_iff_of_exact {eof : Bool} {source : List ReadResult}
    (exact : ExactAtRefill eof source) (unscanned : Nat) :
    ∀ state, Ready state → state.eof = eof → state.buf.length - state.rdPtr = unscanned →
      (Safe state source ↔ CacheFits (heldOf state) eof source) := by
  induction unscanned using Nat.strongRecOn with
  | ind unscanned ih =>
      intro state ready flag size
      by_cases done : state.rdPtr = state.buf.length
      · rw [exact state ready flag done]
        simp [heldOf, heldAfter, done]
      have inside := ready.inside
      have some : state.rdPtr < state.buf.length := by omega
      have nonempty : state.buf.drop state.rdPtr ≠ [] := by
        rw [Ne, List.drop_eq_nil_iff]
        omega
      have scanning := heldAfter_scanning (show (state.scState, state.rdPtr).1 ≤ 2 from
        ready.scanning) (state.buf.drop state.rdPtr)
      rcases seekLoop_held state.scState state.rdPtr (state.buf.drop state.rdPtr) nonempty with
        ⟨after, seek, other, scans⟩ | ⟨count, seek, positive, below, enough, scans⟩
      · rw [scans, List.length_drop, Nat.add_sub_cancel' inside] at scanning
        have scanned : Ready { state with scState := after, rdPtr := state.buf.length } :=
          ⟨Nat.le_refl _, scanning, fun _ => Nat.zero_lt_of_lt some, ready.fits⟩
        rw [safe_scans_all some seek other, exact _ scanned flag rfl, heldOf, scans,
          List.length_drop, Nat.add_sub_cancel' inside]
      · rw [List.length_drop] at below
        have two := enough ready.started
        have fits := ready.fits
        have found : Ready { state with
            scState := 2
            rdPtr := 2
            buf := state.buf.drop (state.rdPtr + count - 2)
            bsbuf := (state.chunkRead 2 (state.rdPtr + count)).bsbuf } := by
          refine ⟨?_, Nat.le_refl _, nofun, ?_⟩
          · simp only [List.length_drop]
            omega
          · simp only [List.length_drop]
            omega
        have fewer := ih (state.buf.length - (state.rdPtr + count)) (by omega) _ found flag
          (by simp only [List.length_drop]; omega)
        rw [safe_finds some seek (by omega) two fits, fewer, heldOf, heldOf, scans,
          List.drop_drop, List.drop_drop, Nat.sub_add_cancel two]

theorem compact_done {state : MjpgState} (done : state.rdPtr = state.buf.length) :
    (compact state).rdPtr = (compact state).buf.length ∧
      (compact state).rdPtr = min state.rdPtr 2 ∧ (compact state).scState = state.scState ∧
      (compact state).eof = state.eof ∧ (compact state).buf.length ≤ state.buf.length := by
  unfold compact
  split
  · refine ⟨?_, ?_, rfl, rfl, ?_⟩ <;> simp only [List.length_drop] <;> omega
  · exact ⟨done, by omega, rfl, rfl, Nat.le_refl _⟩

theorem Ready.compact {state : MjpgState} (ready : Ready state)
    (done : state.rdPtr = state.buf.length) : Ready (compact state) := by
  obtain ⟨done', short, same, -, shrinks⟩ := compact_done done
  have started := ready.started
  have fits := ready.fits
  refine ⟨Nat.le_of_eq done', same ▸ ready.scanning, ?_, by omega⟩
  intro one
  have := started (same ▸ one)
  omega

/-- The refill of a turn, with the answer of `vpu_read`. -/
theorem refillOpen_reads {state : MjpgState} (done : state.rdPtr = state.buf.length)
    (source : List ReadResult) :
    let result := (scriptedRead.read source mjpgFillSize).1
    let rest := (scriptedRead.read source mjpgFillSize).2
    let stored := Store.cachedBsbuf state.buf.length result.bytes.length
    refillOpen state source =
      if result.nread < 0 then ⟨some (-1), state, rest, [stored]⟩
      else if result.nread = 0 then
        if state.eof then ⟨some 0, state, rest, [stored]⟩
        else
          ⟨none, { state with buf := state.buf ++ [0xFF, 0xD8], eof := true }, rest,
            [stored, .cachedBsbuf state.buf.length 1, .cachedBsbuf (state.buf.length + 1) 1]⟩
      else ⟨none, { state with buf := state.buf ++ result.bytes }, rest, [stored]⟩ := by
  simp only [refillOpen, ne_eq, done, not_true_eq_false, if_false]

theorem safe_leaves {state : MjpgState} {source rest : List ReadResult} {ret : Int}
    {stores : List Store} (refilled : refillOpen state source = ⟨some ret, state, rest, stores⟩) :
    Safe state source ↔ AllInside stores ∧ Safe (compact state) rest := by
  apply safe_iff_returns
  intro turns later
  simp [callFrom, tillSoiOpen, refilled]

theorem safe_refilled {state next : MjpgState} {source rest : List ReadResult}
    {stores : List Store} (refilled : refillOpen state source = ⟨none, next, rest, stores⟩)
    (some : next.rdPtr < next.buf.length) :
    Safe state source ↔ AllInside stores ∧ Safe next rest := by
  apply safe_iff_refills
  intro turns later
  simp only [callFrom, tillSoiOpen, refilled, refillOpen_scans some, List.nil_append]
  by_cases missing : (mjpgSeekSoi next.scState (next.buf.drop next.rdPtr)).2 < 0
  · simp only [if_pos missing]
    split
    · rfl
    · rw [List.append_assoc]
  · simp only [if_neg missing]
    simp

theorem inside_iff {index count : Nat} (fits : index ≤ streamBufSize) :
    (Store.cachedBsbuf index count).Inside ↔ index + count ≤ streamBufSize := by
  simp only [Store.Inside]
  constructor
  · intro all
    by_contra beyond
    have last := all (count - 1) (by omega)
    omega
  · intro within i below
    omega

/-- A source at its end is read again by each call. -/
theorem safe_at_end {state : MjpgState} (flag : state.eof = true)
    (done : state.rdPtr = state.buf.length) : Safe state [] := by
  have stays (state : MjpgState) (flag : state.eof = true)
      (done : state.rdPtr = state.buf.length) :
      refillOpen state [] = ⟨some 0, state, [], [.cachedBsbuf state.buf.length 0]⟩ := by
    rw [refillOpen_reads done]
    simp [scriptedRead, flag]
  have calls : ∀ (later : List Nat) (state : MjpgState), state.eof = true →
      state.rdPtr = state.buf.length → AllInside (callStores later state []) := by
    intro later
    induction later with
    | nil =>
        intro state _ _
        exact fun _ member => absurd member List.not_mem_nil
    | cons turns later ih =>
        intro state flag done
        obtain ⟨done', -, -, flag', -⟩ := compact_done done
        rw [callStores_cons]
        cases turns with
        | zero => exact callFrom_zero later _ _
        | succ turns =>
            simp only [callFrom, tillSoiOpen, stays _ (flag'.trans flag) done']
            refine allInside_append.mpr ⟨?_, ih _ (flag'.trans flag) done'⟩
            simp [AllInside, Store.Inside]
  rw [safe_leaves (stays state flag done)]
  refine ⟨by simp [AllInside, Store.Inside], ?_⟩
  intro turns later
  have all := calls (turns :: later) state flag done
  rwa [callStores_cons] at all

theorem held_soi {scState : Nat} (scanning : scState ≤ 2) (held : Nat) :
    heldAfter (scState, held) [0xFF, 0xD8] = (2, 2) := by
  have opens : scStep scState 0xFF = 1 := by
    obtain rfl | rfl | rfl : scState = 0 ∨ scState = 1 ∨ scState = 2 := by omega
    · rfl
    · rfl
    · rfl
  simp [heldAfter, heldStep, opens]

theorem Ready.filled {state : MjpgState} (ready : Ready state)
    (done : state.rdPtr = state.buf.length) {bytes : List Byte}
    (within : state.rdPtr + bytes.length ≤ streamBufSize) (eof : Bool) :
    Ready { state with buf := state.buf ++ bytes, eof := eof } := by
  refine ⟨?_, ready.scanning, ready.started, ?_⟩
  · simp only [List.length_append]
    omega
  · simp only [List.length_append]
    omega

theorem heldOf_filled {state : MjpgState} (done : state.rdPtr = state.buf.length)
    (bytes : List Byte) (eof : Bool) :
    heldOf { state with buf := state.buf ++ bytes, eof := eof } =
      heldAfter (state.scState, state.rdPtr) bytes := by
  rw [heldOf]
  simp only [done, List.drop_left]

section Refill
variable {state : MjpgState} {source : List ReadResult} (ready : Ready state)
  (done : state.rdPtr = state.buf.length)
include ready done

/-- The end of the input, before the marker has been padded. -/
theorem safe_pads (flag : state.eof = false)
    (ends : (scriptedRead.read source mjpgFillSize).1.nread = 0)
    (later : ∀ next, Ready next → next.eof = true →
      (Safe next (scriptedRead.read source mjpgFillSize).2 ↔
        CacheFits (heldOf next) true (scriptedRead.read source mjpgFillSize).2)) :
    Safe state source ↔
      state.rdPtr + 2 ≤ streamBufSize ∧
        CacheFits (2, 2) true (scriptedRead.read source mjpgFillSize).2 := by
  have contract := scriptedRead.contract source mjpgFillSize
  have empty : (scriptedRead.read source mjpgFillSize).1.bytes.length = 0 := by
    have := contract.2.1 (by omega)
    omega
  have fits := ready.fits
  have refilled := refillOpen_reads done source
  simp only [ends, flag, empty, Int.lt_irrefl, if_false, if_true, Bool.false_eq_true] at refilled
  have longer : state.rdPtr < (state.buf ++ [0xFF, 0xD8]).length := by
    simp only [List.length_append, List.length_cons]
    omega
  rw [safe_refilled refilled longer]
  have padded : AllInside [.cachedBsbuf state.buf.length 0, .cachedBsbuf state.buf.length 1,
      .cachedBsbuf (state.buf.length + 1) 1] ↔ state.rdPtr + 2 ≤ streamBufSize := by
    simp only [AllInside, List.forall_mem_cons, List.not_mem_nil, false_imp_iff, implies_true,
      and_true, Store.Inside]
    constructor
    · rintro ⟨-, -, last⟩
      have := last 0 (by omega)
      omega
    · intro within
      refine ⟨?_, ?_, ?_⟩ <;> intro i below <;> omega
  rw [padded]
  refine and_congr_right fun within => ?_
  have room : state.rdPtr + [(0xFF : Byte), 0xD8].length ≤ streamBufSize := within
  rw [later _ (ready.filled done room true) rfl, heldOf_filled done, held_soi ready.scanning]

theorem safe_fills (positive : 0 < (scriptedRead.read source mjpgFillSize).1.nread)
    (later : ∀ next, Ready next → next.eof = state.eof →
      (Safe next (scriptedRead.read source mjpgFillSize).2 ↔
        CacheFits (heldOf next) state.eof (scriptedRead.read source mjpgFillSize).2)) :
    Safe state source ↔
      state.rdPtr + (scriptedRead.read source mjpgFillSize).1.bytes.length ≤ streamBufSize ∧
        CacheFits (heldAfter (state.scState, state.rdPtr)
          (scriptedRead.read source mjpgFillSize).1.bytes) state.eof
          (scriptedRead.read source mjpgFillSize).2 := by
  have contract := scriptedRead.contract source mjpgFillSize
  have some : 0 < (scriptedRead.read source mjpgFillSize).1.bytes.length := by
    have := contract.2.1 (by omega)
    omega
  have refilled := refillOpen_reads done source
  simp only [if_neg (show ¬ (scriptedRead.read source mjpgFillSize).1.nread < 0 by omega),
    if_neg (show ¬ (scriptedRead.read source mjpgFillSize).1.nread = 0 by omega)] at refilled
  have longer : state.rdPtr <
      (state.buf ++ (scriptedRead.read source mjpgFillSize).1.bytes).length := by
    rw [List.length_append]
    omega
  rw [safe_refilled refilled longer]
  have stored : AllInside [.cachedBsbuf state.buf.length
      (scriptedRead.read source mjpgFillSize).1.bytes.length] ↔
      state.rdPtr + (scriptedRead.read source mjpgFillSize).1.bytes.length ≤ streamBufSize := by
    rw [done, ← inside_iff ready.fits]
    simp [AllInside]
  rw [stored]
  refine and_congr_right fun within => ?_
  rw [later _ (ready.filled done within state.eof) rfl, heldOf_filled done]

theorem safe_stops (leaves : ∃ ret, refillOpen state source =
      ⟨some ret, state, (scriptedRead.read source mjpgFillSize).2,
        [.cachedBsbuf state.buf.length
          (scriptedRead.read source mjpgFillSize).1.bytes.length]⟩)
    (later : ∀ next, Ready next → next.eof = state.eof →
      (Safe next (scriptedRead.read source mjpgFillSize).2 ↔
        CacheFits (heldOf next) state.eof (scriptedRead.read source mjpgFillSize).2)) :
    Safe state source ↔
      state.rdPtr + (scriptedRead.read source mjpgFillSize).1.bytes.length ≤ streamBufSize ∧
        CacheFits (heldAnew (state.scState, state.rdPtr)) state.eof
          (scriptedRead.read source mjpgFillSize).2 := by
  obtain ⟨ret, refilled⟩ := leaves
  obtain ⟨done', short, same, flag, -⟩ := compact_done done
  have stored : AllInside [.cachedBsbuf state.buf.length
      (scriptedRead.read source mjpgFillSize).1.bytes.length] ↔
      state.rdPtr + (scriptedRead.read source mjpgFillSize).1.bytes.length ≤ streamBufSize := by
    rw [done, ← inside_iff ready.fits]
    simp [AllInside]
  rw [safe_leaves refilled, stored, later _ (ready.compact done) flag]
  have held : heldOf (compact state) = heldAnew (state.scState, state.rdPtr) := by
    rw [heldOf, same, done', List.drop_length, heldAnew, ← done', short]
    rfl
  rw [held]

end Refill

/-- By induction on the answers: the condition is exact at each refill. -/
theorem exactAtRefill (source : List ReadResult) (eof : Bool) : ExactAtRefill eof source := by
  induction source generalizing eof with
  | nil =>
      have atEnd : ExactAtRefill true [] := by
        intro state ready flag done
        simp [CacheFits, safe_at_end flag done]
      cases eof with
      | true => exact atEnd
      | false =>
          intro state ready flag done
          have pads := @safe_pads state [] ready done flag rfl fun next nextReady ended =>
            safe_iff_of_exact atEnd _ next nextReady ended rfl
          rw [pads]
          simp [CacheFits, scriptedRead]
  | cons answer rest ih =>
      intro state ready flag done
      have source : (scriptedRead.read (answer :: rest) mjpgFillSize).2 = rest := by
        simp only [scriptedRead]
        split <;> rfl
      have later (flag : Bool) (next : MjpgState) (nextReady : Ready next)
          (same : next.eof = flag) :
          Safe next (scriptedRead.read (answer :: rest) mjpgFillSize).2 ↔
            CacheFits (heldOf next) flag (scriptedRead.read (answer :: rest) mjpgFillSize).2 := by
        rw [source]
        exact safe_iff_of_exact (ih flag) _ next nextReady same rfl
      have contract := scriptedRead.contract (answer :: rest) mjpgFillSize
      have refilled := refillOpen_reads done (answer :: rest)
      simp only at refilled
      simp only [CacheFits]
      subst flag
      by_cases fails : (scriptedRead.read (answer :: rest) mjpgFillSize).1.nread < 0
      · rw [if_pos fails] at refilled ⊢
        rw [safe_stops ready done ⟨_, refilled⟩ (later _), source]
      rw [if_neg fails] at refilled ⊢
      by_cases ends : (scriptedRead.read (answer :: rest) mjpgFillSize).1.nread = 0
      · have empty : (scriptedRead.read (answer :: rest) mjpgFillSize).1.bytes.length = 0 := by
          have := contract.2.1 (by omega)
          omega
        have fits := ready.fits
        rw [if_pos ends] at refilled ⊢
        cases flag : state.eof with
        | true =>
            rw [flag, if_pos rfl] at refilled
            rw [safe_stops ready done ⟨_, refilled⟩ (later _), source, flag]
            simp
        | false =>
            rw [safe_pads ready done flag ends (later true), source, empty]
            simp only [Bool.false_eq_true, if_false]
            constructor
            · intro both
              exact ⟨by omega, both⟩
            · exact fun both => both.2
      · rw [if_neg ends]
        rw [safe_fills ready done (by omega) (later _), source]

theorem zeroed_ready (bsbuf : List Byte) : Ready (MjpgState.zeroed bsbuf) :=
  ⟨Nat.le_refl _, Nat.zero_le _, nofun, Nat.zero_le _⟩

theorem calls_inside_iff (bsbuf : List Byte) (source : List ReadResult) :
    (∀ turns, ∀ store ∈ callStores turns (MjpgState.zeroed bsbuf) source, store.Inside) ↔
      Safe (MjpgState.zeroed bsbuf) source := by
  constructor
  · intro all turns later
    exact all (turns :: later)
  · intro safe turns
    cases turns with
    | nil => exact fun _ member => absurd member List.not_mem_nil
    | cons turns later => exact safe turns later

/-- Whatever the answers of `vpu_read` and however often the function is called, all its
stores are inside the buffers exactly when the bytes between two markers fit. -/
theorem mjpgReadChunkTillSoi_stores_inside_iff (bsbuf : List Byte) (source : List ReadResult) :
    (∀ turns, ∀ store ∈ callStores turns (MjpgState.zeroed bsbuf) source, store.Inside) ↔
      CacheFits (0, 0) false source :=
  (calls_inside_iff bsbuf source).trans
    (exactAtRefill source false (MjpgState.zeroed bsbuf) (zeroed_ready bsbuf) rfl rfl)

/-! ## A stream without a marker -/

def zeros : ReadResult := ⟨mjpgFillSize, List.replicate mjpgFillSize 0⟩

theorem read_zeros (rest : List ReadResult) :
    (scriptedRead.read (zeros :: rest) mjpgFillSize).1 = zeros := by
  have contract : ReadContract mjpgFillSize zeros := by
    refine ⟨?_, ?_, ?_⟩
    · simp [zeros]
    · simp [zeros]
    · intro again
      exact absurd again (by decide)
  simp only [scriptedRead, if_pos contract]

theorem heldAfter_zeros (held count : Nat) :
    heldAfter (0, held) (List.replicate count 0) = (0, held + count) := by
  induction count generalizing held with
  | zero => rfl
  | succ count ih =>
      have step : heldStep (0, held) 0 = (0, held + 1) := rfl
      rw [List.replicate_succ, heldAfter, List.foldl_cons, step, ← heldAfter, ih]
      congr 1
      omega

/-- All the zeros are held. -/
theorem cacheFits_zeros (count held : Nat)
    (fits : CacheFits (0, held) false (List.replicate (count + 1) zeros)) :
    held + (count + 1) * mjpgFillSize ≤ streamBufSize := by
  induction count generalizing held with
  | zero =>
      simp only [List.replicate_succ, List.replicate_zero, CacheFits, read_zeros] at fits
      have first := fits.1
      simp only [zeros, List.length_replicate] at first
      omega
  | succ count ih =>
      rw [List.replicate_succ, CacheFits] at fits
      simp only [read_zeros] at fits
      have later := fits.2
      rw [if_neg (by decide), if_neg (by decide)] at later
      simp only [zeros, heldAfter_zeros] at later
      have bound := ih _ later
      rw [Nat.succ_mul]
      omega

/-- 2105344 bytes without a marker, in full reads of 8192 bytes. -/
theorem mjpgReadChunkTillSoi_overruns :
    ¬ ∀ turns, ∀ store ∈ callStores turns (MjpgState.zeroed []) (List.replicate 257 zeros),
      store.Inside := by
  rw [calls_inside_iff, exactAtRefill _ false _ (zeroed_ready []) rfl rfl]
  intro fits
  exact absurd (cacheFits_zeros 256 0 fits) (by decide)

end ImxTest.Vpu.MjpgBounds
