import Mathlib.Algebra.Ring.Nat
import ImxTest.Lib.Run

/-!
# The pattern of the UART stress test

`w_op` writes a buffer with the pattern 1, 2, 3, .. again and again, and `r_op`
compares what arrives with the pattern at its running position.  Both are threads
over a lossless link; a run is any interleaving of the results of `write` and `read`.
After a short write `w_op` begins again with the first byte of its buffer, while the
position of `r_op` is inside it.

`int` and `size_t` have 32 bits and `char` is unsigned.
-/

set_option autoImplicit false

namespace ImxTest.Uart

open ImxTest.Lib.Run

abbrev Byte : Type := BitVec 8

/-- `CHUNK_SIZE`, `CHUNKS`, `log_out` and whether `ANDROID` is defined.  The buffers
have 1024 bytes. -/
structure Config where
  chunkSize : Nat
  chunks : Nat
  logOut : Bool
  android : Bool
  least : 1 ≤ chunkSize
  most : chunkSize ≤ 1024
  deriving DecidableEq, Repr

inductive Line where
  | writeError (count : Int) (attempt : Nat)
  | readError (count : Int) (attempt : Nat)
  | mismatch (v : Nat) (should : Int) (but : Byte)
  | readIs (attempt : Nat) (bad : Bool) (count : Nat)
  | readNothing
  deriving DecidableEq, Repr

def sizeValues : Nat := 2 ^ 32

def ssizeMax : Nat := 2 ^ 31 - 1

/-- The result of `read` or `write` as a `size_t`; `none` is -1. -/
def countOf (result : Option Nat) : Nat :=
  result.getD (sizeValues - 1)

/-- `(int)count`. -/
def countInt (count : Nat) : Int :=
  if count ≤ ssizeMax then count else (count : Int) - sizeValues

def buffer (config : Config) : List Byte :=
  (List.range config.chunkSize).map fun i => BitVec.ofNat 8 (i + 1)

/-! ## The writer -/

structure Writer where
  i : Nat
  k : Nat
  total : Nat
  log : List Line
  deriving DecidableEq, Repr

def going (config : Config) (total k : Nat) : Bool :=
  total < config.chunkSize * config.chunks && k < 10

def writeFailed (config : Config) (count : Nat) : Bool :=
  if config.android then ssizeMax < count else count != config.chunkSize

/-- One pass of the loop of `w_op` with the result of `write`. -/
def Writer.pass (config : Config) (writer : Writer) (count : Nat) : Writer :=
  let i := writer.i + 1
  if writeFailed config count then
    { writer with i := i, k := writer.k + 1, log := writer.log ++ [.writeError (countInt count) i] }
  else
    { writer with
      i := i
      k := if count = 0 then writer.k + 1 else writer.k
      total := (writer.total + count) % sizeValues }

/-! ## The reader -/

structure Reader where
  i : Nat
  k : Nat
  total : Nat
  /-- The `static` variable. -/
  sum : BitVec 32
  log : List Line
  deriving DecidableEq, Repr

def shouldBe (config : Config) (sum : BitVec 32) : Int :=
  (sum.toInt.tmod config.chunkSize + 1).tmod 0x100

/-- `for (v = 0; v < CHUNK_SIZE && v < count; v++, sum++)` over the bytes that it looks at. -/
def compareBytes (config : Config) : Nat → BitVec 32 → List Byte → List Line × BitVec 32
  | _, sum, [] => ([], sum)
  | v, sum, byte :: rest =>
      let later := compareBytes config (v + 1) (sum + 1) rest
      if (byte.toNat : Int) = shouldBe config sum then later
      else (.mismatch v (shouldBe config sum) byte :: later.1, later.2)

def readFailed (config : Config) (count : Nat) : Bool :=
  config.android && ssizeMax < count

/-- `tmp` after `memset` and `read`. -/
def readBuffer (bytes : List Byte) : List Byte :=
  bytes ++ List.replicate (1024 - bytes.length) 0

/-- One pass of the loop of `r_op` with the result of `read` and the bytes it gave. -/
def Reader.pass (config : Config) (reader : Reader) (count : Nat) (bytes : List Byte) : Reader :=
  let i := reader.i + 1
  if readFailed config count then
    { reader with i := i, k := reader.k + 1, log := reader.log ++ [.readError (countInt count) i] }
  else
    let compared := compareBytes config 0 reader.sum
      ((readBuffer bytes).take (min config.chunkSize count))
    let report : List Line :=
      if 0 < count ∧ config.logOut = true then [.readIs i (!compared.1.isEmpty) count]
      else if count = 0 then [.readNothing]
      else []
    { i := i
      k := if count = 0 then reader.k + 1 else reader.k
      total := (reader.total + count) % sizeValues
      sum := compared.2
      log := reader.log ++ compared.1 ++ report }

/-! ## Both threads and the link -/

structure Sys where
  writer : Writer
  reader : Reader
  link : List Byte
  deriving DecidableEq, Repr

def Sys.start : Sys where
  writer := ⟨0, 0, 0, []⟩
  reader := ⟨0, 0, 0, 0, []⟩
  link := []

inductive Event where
  | write (result : Option Nat)
  | read (result : Option Nat)
  deriving DecidableEq, Repr

/-- Neither call moves more bytes than it was asked to, and `read` no more than have
arrived. -/
def step (config : Config) (sys : Sys) : Event → Option Sys
  | .write result =>
      if going config sys.writer.total sys.writer.k ∧ result.getD 0 ≤ config.chunkSize then
        some { sys with
          writer := sys.writer.pass config (countOf result)
          link := sys.link ++ (buffer config).take (result.getD 0) }
      else none
  | .read result =>
      if going config sys.reader.total sys.reader.k ∧ result.getD 0 ≤ config.chunkSize ∧
          result.getD 0 ≤ sys.link.length then
        some { sys with
          reader := sys.reader.pass config (countOf result) (sys.link.take (result.getD 0))
          link := sys.link.drop (result.getD 0) }
      else none

def Line.isMismatch : Line → Bool
  | .mismatch _ _ _ => true
  | _ => false

def Agree (sys : Sys) : Prop :=
  ∀ line ∈ sys.reader.log, line.isMismatch = false

/-- A result of at least one byte. -/
def Event.Moves : Event → Prop
  | .write result => ∃ count, result = some count ∧ 1 ≤ count
  | .read result => ∃ count, result = some count ∧ 1 ≤ count

def writesOf (events : List Event) : List Nat :=
  events.filterMap fun event =>
    match event with
    | .write result => result
    | .read _ => none

def readOf (events : List Event) : Nat :=
  (events.filterMap fun event =>
    match event with
    | .write _ => none
    | .read result => result).sum

/-- Each write that is read from, in part or whole, begins a multiple of 256 bytes
into the chunk, and what is read of it stays inside the chunk unless the size of the
chunk is such a multiple. -/
def InStep (chunkSize : Nat) : Nat → Nat → List Nat → Prop
  | _, _, [] => True
  | position, unread, count :: rest =>
      (0 < unread → 256 ∣ position % chunkSize ∧
        (min count unread ≤ chunkSize - position % chunkSize ∨ 256 ∣ chunkSize)) ∧
      InStep chunkSize (position + count) (unread - count) rest

/-! ## What the reader compares -/

/-- The bytes are those of the pattern from a position on. -/
def Matches (chunkSize : Nat) : Nat → List Byte → Prop
  | _, [] => True
  | n, byte :: rest => byte.toNat = (n % chunkSize + 1) % 256 ∧ Matches chunkSize (n + 1) rest

theorem matches_append {chunkSize n : Nat} {first second : List Byte} :
    Matches chunkSize n (first ++ second) ↔
      Matches chunkSize n first ∧ Matches chunkSize (n + first.length) second := by
  induction first generalizing n with
  | nil => exact (and_iff_right trivial).symm
  | cons byte rest ih =>
      have shifted : n + (rest.length + 1) = n + 1 + rest.length := by omega
      simp only [List.cons_append, Matches, ih, List.length_cons, shifted, and_assoc]

theorem shouldBe_eq (config : Config) {n : Nat} (small : n < 2 ^ 31) :
    shouldBe config (BitVec.ofNat 32 n) = ((n % config.chunkSize + 1) % 256 : Nat) := by
  have value : (BitVec.ofNat 32 n).toNat = n := by
    rw [BitVec.toNat_ofNat, Nat.mod_eq_of_lt (by omega)]
  rw [shouldBe, BitVec.toInt_eq_toNat_of_lt (by omega), value, ← Int.ofNat_tmod]
  exact (Int.ofNat_tmod (n % config.chunkSize + 1) 256).symm

theorem compareBytes_spec (config : Config) {n v : Nat} {bytes : List Byte}
    (small : n + bytes.length < 2 ^ 31) :
    ((∀ line ∈ (compareBytes config v (BitVec.ofNat 32 n) bytes).1, line.isMismatch = false) ↔
        Matches config.chunkSize n bytes) ∧
      (compareBytes config v (BitVec.ofNat 32 n) bytes).2 = BitVec.ofNat 32 (n + bytes.length) := by
  induction bytes generalizing n v with
  | nil =>
      refine ⟨iff_of_true ?_ trivial, rfl⟩
      intro line member
      cases member
  | cons byte rest ih =>
      rw [List.length_cons] at small
      have next : BitVec.ofNat 32 n + 1 = BitVec.ofNat 32 (n + 1) := BitVec.ofNat_add_ofNat n 1
      obtain ⟨lines, sum⟩ := @ih (n + 1) (v + 1) (by omega)
      have shifted : n + (rest.length + 1) = n + 1 + rest.length := by omega
      simp only [compareBytes, next, shouldBe_eq config (show n < 2 ^ 31 by omega), Matches,
        List.length_cons, shifted, Int.ofNat_inj]
      split
      · next same => exact ⟨by rw [lines]; exact (and_iff_right same).symm, sum⟩
      · next differs =>
          refine ⟨iff_of_false ?_ fun both => differs both.1, sum⟩
          intro none
          exact Bool.noConfusion (none _ List.mem_cons_self)

theorem reader_pass {config : Config} {reader : Reader} {n : Nat} {bytes : List Byte}
    (sum : reader.sum = BitVec.ofNat 32 n) (small : n + bytes.length < 2 ^ 31)
    (fits : bytes.length ≤ config.chunkSize) :
    (reader.pass config bytes.length bytes).sum = BitVec.ofNat 32 (n + bytes.length) ∧
      ((∀ line ∈ (reader.pass config bytes.length bytes).log, line.isMismatch = false) ↔
        (∀ line ∈ reader.log, line.isMismatch = false) ∧
          Matches config.chunkSize n bytes) := by
  have succeeded : readFailed config bytes.length = false := by
    have bound : ¬ ssizeMax < bytes.length := by
      unfold ssizeMax
      omega
    simp [readFailed, bound]
  have looked : (readBuffer bytes).take (min config.chunkSize bytes.length) = bytes := by
    rw [Nat.min_eq_right fits, readBuffer, List.take_left]
  obtain ⟨lines, after⟩ := @compareBytes_spec config n 0 bytes small
  simp only [Reader.pass, succeeded, Bool.false_eq_true, if_false, looked, sum]
  refine ⟨after, ?_⟩
  rw [← lines, List.forall_mem_append, List.forall_mem_append]
  refine and_iff_left ?_
  split
  · exact fun line member => by rw [List.mem_singleton.mp member]; rfl
  · split
    · exact fun line member => by rw [List.mem_singleton.mp member]; rfl
    · exact fun line member => by cases member

/-! ## What the writer has written -/

def stream (config : Config) (writes : List Nat) : List Byte :=
  writes.flatMap fun count => (buffer config).take count

theorem stream_cons (config : Config) (count : Nat) (writes : List Nat) :
    stream config (count :: writes) = (buffer config).take count ++ stream config writes :=
  List.flatMap_cons

theorem buffer_length (config : Config) : (buffer config).length = config.chunkSize := by
  simp [buffer]

theorem length_take_buffer {config : Config} {count : Nat} (fits : count ≤ config.chunkSize) :
    ((buffer config).take count).length = count := by
  rw [List.length_take, buffer_length, Nat.min_eq_left fits]

/-- The pattern at the start of the buffer, compared from another position on. -/
theorem matches_buffer_take {config : Config} {position count : Nat} :
    Matches config.chunkSize position ((buffer config).take count) ↔
      ∀ j, j < min count config.chunkSize →
        (j + 1) % 256 = ((position + j) % config.chunkSize + 1) % 256 := by
  have bytes : (buffer config).take count =
      (List.range (min count config.chunkSize)).map fun i => BitVec.ofNat 8 (i + 1) := by
    rw [buffer, ← List.map_take, List.take_range]
  rw [bytes]
  clear bytes
  generalize min count config.chunkSize = n
  induction n with
  | zero => simp [Matches]
  | succ n ih =>
      rw [List.range_succ, List.map_append, matches_append]
      refine (and_congr_left' ih).trans ?_
      simp only [List.map_cons, List.map_nil, List.length_map, List.length_range, Matches,
        and_true, BitVec.toNat_ofNat]
      constructor
      · rintro ⟨before, last⟩ j below
        by_cases same : j = n
        · rw [same]
          exact last
        · exact before j (by omega)
      · intro all
        exact ⟨fun j below => all j (by omega), all n (by omega)⟩

/-- When a write that begins at a position shows the pattern of that position. -/
theorem pattern_iff {chunkSize position count : Nat} (positive : 0 < count)
    (fits : count ≤ chunkSize) :
    (∀ j, j < count → (j + 1) % 256 = ((position + j) % chunkSize + 1) % 256) ↔
      256 ∣ position % chunkSize ∧
        (count ≤ chunkSize - position % chunkSize ∨ 256 ∣ chunkSize) := by
  have inside : position % chunkSize < chunkSize := Nat.mod_lt _ (by omega)
  have before : ∀ j, j < chunkSize - position % chunkSize →
      (position + j) % chunkSize = position % chunkSize + j := by
    intro j below
    rw [Nat.add_mod, Nat.mod_eq_of_lt (show j < chunkSize by omega),
      Nat.mod_eq_of_lt (by omega)]
  have after : ∀ j, chunkSize - position % chunkSize ≤ j → j < chunkSize →
      (position + j) % chunkSize = position % chunkSize + j - chunkSize := by
    intro j past below
    rw [Nat.add_mod, Nat.mod_eq_of_lt below, Nat.mod_eq_sub_mod (by omega),
      Nat.mod_eq_of_lt (by omega)]
  constructor
  · intro all
    have start := all 0 positive
    rw [before 0 (by omega)] at start
    refine ⟨by omega, ?_⟩
    by_cases short : count ≤ chunkSize - position % chunkSize
    · exact .inl short
    · have wraps := all (chunkSize - position % chunkSize) (by omega)
      by_cases whole : chunkSize - position % chunkSize < chunkSize
      · rw [after _ (Nat.le_refl _) whole] at wraps
        exact .inr (by omega)
      · omega
  · rintro ⟨⟨groups, starts⟩, short⟩ j below
    by_cases past : j < chunkSize - position % chunkSize
    · rw [before j past, starts]
      omega
    · obtain ⟨wholes, size⟩ := short.resolve_left (by omega)
      rw [after j (by omega) (by omega)]
      omega

theorem matches_stream {config : Config} {writes : List Nat} {position unread : Nat}
    (fit : ∀ count ∈ writes, 1 ≤ count ∧ count ≤ config.chunkSize) :
    Matches config.chunkSize position ((stream config writes).take unread) ↔
      InStep config.chunkSize position unread writes := by
  induction writes generalizing position unread with
  | nil => simp [stream, Matches, InStep]
  | cons count rest ih =>
      obtain ⟨positive, most⟩ := fit count List.mem_cons_self
      have later := @ih (position + count) (unread - count) fun count member =>
        fit count (List.mem_cons_of_mem _ member)
      have length := length_take_buffer most
      have parts : (stream config (count :: rest)).take unread =
          (buffer config).take (min unread count) ++
            (stream config rest).take (unread - count) := by
        rw [stream_cons, List.take_append, List.take_take, length]
      rw [parts, matches_append, matches_buffer_take, InStep, ← later]
      refine and_congr ?_ ?_
      · rw [Nat.min_eq_left (show min unread count ≤ config.chunkSize by omega),
          Nat.min_comm count unread]
        by_cases some : 0 < unread
        · rw [pattern_iff (show 0 < min unread count by omega) (by omega)]
          exact (imp_iff_right some).symm
        · exact iff_of_true (fun j below => by omega) fun positive => absurd positive some
      · by_cases partly : unread ≤ count
        · rw [Nat.sub_eq_zero_of_le partly]
          exact iff_of_true trivial trivial
        · rw [Nat.min_eq_right (by omega), length]

/-! ## Runs -/

section Runs
variable {config : Config} {sys next : Sys} {count n : Nat}

theorem step_write (stepped : step config sys (.write (some count)) = some next) :
    count ≤ config.chunkSize ∧ next.reader = sys.reader ∧
      next.link = sys.link ++ (buffer config).take count := by
  simp only [step] at stepped
  split at stepped
  · next may =>
      cases stepped
      exact ⟨may.2, rfl, rfl⟩
  · cases stepped

theorem step_read (stepped : step config sys (.read (some count)) = some next) :
    count ≤ config.chunkSize ∧ count ≤ sys.link.length ∧
      next.reader = sys.reader.pass config count (sys.link.take count) ∧
      next.link = sys.link.drop count := by
  simp only [step] at stepped
  split at stepped
  · next may =>
      cases stepped
      exact ⟨may.2.1, may.2.2, rfl, rfl⟩
  · cases stepped

theorem agree_read (stepped : step config sys (.read (some count)) = some next)
    (sum : sys.reader.sum = BitVec.ofNat 32 n) (small : n + sys.link.length < 2 ^ 31) :
    next.reader.sum = BitVec.ofNat 32 (n + count) ∧
      (Agree next ↔ Agree sys ∧ Matches config.chunkSize n (sys.link.take count)) := by
  obtain ⟨fits, arrived, reader, -⟩ := step_read stepped
  have length : (sys.link.take count).length = count := List.length_take_of_le arrived
  have passed := @reader_pass config sys.reader n (sys.link.take count) sum (by omega) (by omega)
  rw [length] at passed
  rw [Agree, reader]
  exact passed

theorem link_write (stepped : step config sys (.write (some count)) = some next)
    (writes : List Nat) :
    sys.link ++ stream config (count :: writes) = next.link ++ stream config writes ∧
      next.link.length = sys.link.length + count := by
  obtain ⟨fits, -, link⟩ := step_write stepped
  rw [link, stream_cons, List.append_assoc, List.length_append, length_take_buffer fits]
  exact ⟨rfl, rfl⟩

theorem link_read (stepped : step config sys (.read (some count)) = some next)
    (coming : List Byte) (unread : Nat) :
    (sys.link ++ coming).take (count + unread) =
        sys.link.take count ++ (next.link ++ coming).take unread ∧
      next.link.length = sys.link.length - count := by
  obtain ⟨-, arrived, -, link⟩ := step_read stepped
  rw [List.take_add, List.take_append_of_le_length arrived,
    List.drop_append_of_le_length arrived, link, List.length_drop]
  exact ⟨rfl, rfl⟩

theorem run_spec {events : List Event} {final : Sys}
    (run : runEvents (step config) events sys = some final)
    (moves : ∀ event ∈ events, event.Moves) (sum : sys.reader.sum = BitVec.ofNat 32 n)
    (small : n + (sys.link.length + (writesOf events).sum) < 2 ^ 31) :
    (∀ count ∈ writesOf events, 1 ≤ count ∧ count ≤ config.chunkSize) ∧
      (Agree final ↔ Agree sys ∧ Matches config.chunkSize n
        ((sys.link ++ stream config (writesOf events)).take (readOf events))) := by
  induction events generalizing sys n with
  | nil =>
      cases run
      refine ⟨fun count member => (by cases member), ?_⟩
      simp [readOf, Matches]
  | cons event rest ih =>
      obtain ⟨next, stepped, later⟩ := (runEvents_cons event rest sys final).mp run
      have moves' : ∀ event ∈ rest, event.Moves := fun event member =>
        moves event (List.mem_cons_of_mem _ member)
      cases event with
      | write result =>
          obtain ⟨count, rfl, positive⟩ := moves _ List.mem_cons_self
          obtain ⟨fits, reader, -⟩ := step_write stepped
          obtain ⟨same, length⟩ := link_write stepped (writesOf rest)
          have writes : writesOf (.write (some count) :: rest) = count :: writesOf rest := rfl
          have reads : readOf (.write (some count) :: rest) = readOf rest := rfl
          rw [writes] at small ⊢
          rw [reads]
          rw [List.sum_cons] at small
          obtain ⟨fit, agree⟩ := @ih next n later moves' (by rw [reader]; exact sum) (by omega)
          refine ⟨?_, ?_⟩
          · rw [List.forall_mem_cons]
            exact ⟨⟨positive, fits⟩, fit⟩
          · rw [same, agree, Agree, Agree, reader]
      | read result =>
          obtain ⟨count, rfl, positive⟩ := moves _ List.mem_cons_self
          obtain ⟨-, arrived, -, -⟩ := step_read stepped
          obtain ⟨sum', agreed⟩ := agree_read stepped sum (by omega)
          obtain ⟨parts, length⟩ := link_read stepped (stream config (writesOf rest)) (readOf rest)
          have writes : writesOf (.read (some count) :: rest) = writesOf rest := rfl
          have reads : readOf (.read (some count) :: rest) = count + readOf rest := List.sum_cons
          rw [writes] at small ⊢
          rw [reads]
          obtain ⟨fit, agree⟩ := @ih next (n + count) later moves' sum' (by omega)
          refine ⟨fit, ?_⟩
          rw [parts, matches_append, List.length_take_of_le arrived, agree, agreed, and_assoc]

/-- The reader reports nothing exactly when every write that it reads from is in step
with its position. -/
theorem agree_iff_inStep (config : Config) (events : List Event) (final : Sys)
    (run : runEvents (step config) events .start = some final)
    (moves : ∀ event ∈ events, event.Moves) (few : (writesOf events).sum < 2 ^ 31) :
    Agree final ↔ InStep config.chunkSize 0 (readOf events) (writesOf events) := by
  obtain ⟨fit, agree⟩ := @run_spec config .start 0 events final run moves rfl
    (by simpa [Sys.start] using few)
  have nothing : Agree Sys.start := fun line member => by cases member
  rw [agree, and_iff_right nothing, ← matches_stream fit]
  rfl

end Runs

def smallChunks (android : Bool) : Config :=
  ⟨4, 2, false, android, by decide, by decide⟩

/-- Two full writes, read in pieces. -/
theorem agree_full_writes :
    ∃ final, runEvents (step (smallChunks false))
        [.write (some 4), .read (some 3), .write (some 4), .read (some 4), .read (some 1)] .start =
      some final ∧ Agree final := by
  refine ⟨_, rfl, ?_⟩
  refine (agree_iff_inStep (smallChunks false)
    [.write (some 4), .read (some 3), .write (some 4), .read (some 4), .read (some 1)] _ rfl
    ?_ (by decide)).mpr ?_
  · simp [Event.Moves]
  · simp [smallChunks, writesOf, readOf, InStep]

/-- After a write of three bytes the fourth should be 4 and is 1. -/
theorem short_write_reported :
    ¬ ∀ (config : Config) (events : List Event) (final : Sys),
      runEvents (step config) events .start = some final → (∀ event ∈ events, event.Moves) →
      (writesOf events).sum < 2 ^ 31 → Agree final := by
  intro agree
  have moves : ∀ event ∈ [Event.write (some 3), Event.write (some 4), Event.read (some 4)],
      event.Moves := by simp [Event.Moves]
  have reported := agree (smallChunks false) _ _ rfl moves (by decide)
  exact Bool.noConfusion (reported (.mismatch 3 4 1) (by decide))

end ImxTest.Uart
