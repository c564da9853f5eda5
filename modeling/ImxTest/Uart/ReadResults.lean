import ImxTest.Uart.Stress

/-!
# What the reader counts

`r_op` counts the bytes that it has read, the reads without a byte and its position in
the pattern.  The result of `read` is kept in a `size_t`, where -1 is the largest value:
outside Android the test for an error is never true, and the result is taken for a count.
-/

set_option autoImplicit false

namespace ImxTest.Uart

open ImxTest.Lib.Run

/-- A build that is not for Android; the number of bytes in all is an `int`. -/
structure PlainConfig extends Config where
  plain : android = false
  inInt : chunkSize * chunks < 2 ^ 31

/-- A pass of the loop of `r_op` with the bytes that `read` gives, `none` for -1. -/
def readStep (config : Config) (reader : Reader) (result : Option (List Byte)) : Option Reader :=
  if going config reader.total reader.k ∧ (result.getD []).length ≤ config.chunkSize then
    some (reader.pass config (countOf (result.map List.length)) (result.getD []))
  else none

def received (results : List (Option (List Byte))) : Nat :=
  (results.map fun result => (result.getD []).length).sum

def withoutByte (results : List (Option (List Byte))) : Nat :=
  results.countP fun result => result.getD [] = []

structure Accounts (start : Reader) (results : List (Option (List Byte))) (reader : Reader) :
    Prop where
  total : reader.total = start.total + received results
  k : reader.k = start.k + withoutByte results
  sum : reader.sum = start.sum + BitVec.ofNat 32 (received results)

section Step
variable {config : PlainConfig} {reader next : Reader}

theorem compareBytes_sum (config : Config) (v : Nat) (sum : BitVec 32) (bytes : List Byte) :
    (compareBytes config v sum bytes).2 = sum + BitVec.ofNat 32 bytes.length := by
  induction bytes generalizing v sum with
  | nil => exact (BitVec.add_zero sum).symm
  | cons byte rest ih =>
      have shifted : sum + 1 + BitVec.ofNat 32 rest.length =
          sum + BitVec.ofNat 32 (rest.length + 1) := by
        rw [BitVec.add_assoc, Nat.add_comm, BitVec.ofNat_add]
        rfl
      rw [compareBytes]
      split
      · rw [ih, shifted, List.length_cons]
      · rw [ih, shifted, List.length_cons]

theorem not_readFailed (config : PlainConfig) (count : Nat) :
    readFailed config.toConfig count = false := by
  rw [readFailed, config.plain, Bool.false_and]

theorem readStep_eq {result : Option (List Byte)}
    (stepped : readStep config.toConfig reader result = some next) :
    reader.total < config.chunkSize * config.chunks ∧
      (result.getD []).length ≤ config.chunkSize ∧
      next = reader.pass config.toConfig (countOf (result.map List.length)) (result.getD []) := by
  rw [readStep] at stepped
  split at stepped
  · rename_i may
    obtain ⟨goes, fits⟩ := may
    rw [going, Bool.and_eq_true] at goes
    exact ⟨of_decide_eq_true goes.1, fits, (Option.some.inj stepped).symm⟩
  · cases stepped

theorem readStep_accounts {bytes : List Byte}
    (stepped : readStep config.toConfig reader (some bytes) = some next) :
    Accounts reader [some bytes] next := by
  obtain ⟨more, fits, rfl⟩ := readStep_eq stepped
  have product := config.inInt
  have most := config.most
  rw [Option.getD_some] at fits
  have count : countOf ((some bytes).map List.length) = bytes.length := rfl
  have number : received [some bytes] = bytes.length := by simp [received]
  have looked : (readBuffer bytes).take (min config.chunkSize bytes.length) = bytes := by
    rw [Nat.min_eq_right fits, readBuffer, List.take_left]
  rw [Option.getD_some, count, Reader.pass, not_readFailed]
  dsimp only
  rw [if_neg Bool.false_ne_true, looked]
  constructor
  · rw [number]
    exact Nat.mod_eq_of_lt (by unfold sizeValues; omega)
  · cases bytes with
    | nil => rfl
    | cons byte rest => rfl
  · rw [number]
    exact compareBytes_sum _ _ _ _

theorem readStep_failed
    (stepped : readStep config.toConfig reader none = some next) : next.k = reader.k := by
  obtain ⟨-, -, rfl⟩ := readStep_eq stepped
  rw [Reader.pass, not_readFailed]
  rfl

end Step

section Runs
variable {config : PlainConfig} {start middle final : Reader}
variable {results more : List (Option (List Byte))}

theorem Accounts.append (first : Accounts start results middle)
    (second : Accounts middle more final) : Accounts start (results ++ more) final := by
  have bytes : received (results ++ more) = received results + received more := by
    rw [received, List.map_append, List.sum_append]
    rfl
  constructor
  · rw [second.total, first.total, bytes, Nat.add_assoc]
  · rw [second.k, first.k, withoutByte, withoutByte, withoutByte, List.countP_append,
      Nat.add_assoc]
  · rw [second.sum, first.sum, bytes, BitVec.ofNat_add, BitVec.add_assoc]

/-- Without a result -1 every pass counts what it reads. -/
theorem run_accounts (run : runEvents (readStep config.toConfig) results start = some final)
    (good : none ∉ results) : Accounts start results final := by
  induction results generalizing start with
  | nil =>
      cases run
      exact ⟨rfl, rfl, (BitVec.add_zero _).symm⟩
  | cons result rest ih =>
      obtain ⟨next, stepped, later⟩ := (runEvents_cons result rest start final).mp run
      cases result with
      | none => exact absurd List.mem_cons_self good
      | some bytes =>
          have after := ih later (List.not_mem_of_not_mem_cons good)
          exact (readStep_accounts stepped).append after

/-- The counters are right after every pass exactly when no read has failed. -/
theorem accounts_iff (config : PlainConfig) (results : List (Option (List Byte)))
    (start final : Reader)
    (run : runEvents (readStep config.toConfig) results start = some final) :
    (∀ done rest reader, results = done ++ rest →
        runEvents (readStep config.toConfig) done start = some reader →
        Accounts start done reader) ↔ none ∉ results := by
  constructor
  · intro always failed
    obtain ⟨done, rest, rfl⟩ := List.append_of_mem failed
    obtain ⟨reader, before, after⟩ := (runEvents_append done _ start final).mp run
    obtain ⟨next, stepped, -⟩ := (runEvents_cons none rest reader final).mp after
    have through : runEvents (readStep config.toConfig) (done ++ [none]) start = some next :=
      (runEvents_append done [none] start next).mpr
        ⟨reader, before, (runEvents_cons none [] reader next).mpr ⟨next, stepped, rfl⟩⟩
    have counted := (always done (none :: rest) reader rfl before).k
    have missed := (always (done ++ [none]) rest next (by simp) through).k
    have one : withoutByte (done ++ [none]) = withoutByte done + 1 := by
      rw [withoutByte, List.countP_append]
      rfl
    rw [readStep_failed stepped, counted, one] at missed
    omega
  · intro good done rest reader same before
    apply run_accounts before
    intro failed
    rw [same] at good
    exact good (List.mem_append_left rest failed)

end Runs

def defaultSizes : PlainConfig where
  chunkSize := 1024
  chunks := 100
  logOut := false
  android := false
  least := by decide
  most := by decide
  plain := rfl
  inInt := by decide

def atFirst : Reader := ⟨0, 0, 0, 0, []⟩

theorem accounts_one_byte :
    ∃ final, runEvents (readStep defaultSizes.toConfig) [some [1], some []] atFirst = some final ∧
      ∀ done rest reader, [some [1], some []] = done ++ rest →
        runEvents (readStep defaultSizes.toConfig) done atFirst = some reader →
        Accounts atFirst done reader := by
  refine ⟨_, rfl, ?_⟩
  exact (accounts_iff defaultSizes [some [1], some []] atFirst _ rfl).mpr (by decide)

/-- The first read fails and `k` is still 0. -/
theorem failed_read_not_counted :
    ¬ ∀ (config : PlainConfig) (results : List (Option (List Byte))) (start final : Reader),
      runEvents (readStep config.toConfig) results start = some final →
        Accounts start results final := by
  intro counts
  have k := (counts defaultSizes [none] atFirst _ rfl).k
  exact absurd k (by decide)

end ImxTest.Uart
