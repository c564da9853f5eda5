import ImxTest.Lib.ByteMem
import ImxTest.Vpu.Basic

/-!
# `struct buf_queue`: a ring of buffer indices

The ring has one cell more than it may hold, so that `head == tail` means empty.
`contents` is the list of indices it holds, oldest first; every operation is an
operation on that list.
-/

set_option autoImplicit false

namespace ImxTest.Vpu

open ImxTest.Lib.ByteMem

def maxBufNum : Nat := 32

def queueSize : Nat := maxBufNum + 1

structure BufQueue where
  list : Nat → Int
  head : Nat
  tail : Nat
  headLt : head < queueSize
  tailLt : tail < queueSize

namespace BufQueue

/-- `head = tail = 0`, whatever the cells hold. -/
def empty (list : Nat → Int) : BufQueue := ⟨list, 0, 0, by decide, by decide⟩

def size (q : BufQueue) : Nat :=
  if q.tail ≥ q.head then q.tail - q.head else q.tail + queueSize - q.head

def queueBuf (q : BufQueue) (idx : Int) : BufQueue × Int :=
  if (q.tail + 1) % queueSize = q.head then (q, -1)
  else
    ({ q with
        list := writeAt q.list q.tail [idx]
        tail := (q.tail + 1) % queueSize
        tailLt := Nat.mod_lt _ (by decide) }, 0)

def dequeueBuf (q : BufQueue) : BufQueue × Int :=
  if q.tail = q.head then (q, -1)
  else
    ({ q with
        head := (q.head + 1) % queueSize
        headLt := Nat.mod_lt _ (by decide) }, q.list q.head)

def peekNextBuf (q : BufQueue) : Int :=
  if q.tail = q.head then -1 else q.list q.head

def contents (q : BufQueue) : List Int := readCyclic q.list 0 queueSize q.head q.size

@[simp]
theorem contents_length (q : BufQueue) : q.contents.length = q.size := readCyclic_length ..

theorem contents_empty (list : Nat → Int) : (empty list).contents = [] := rfl

theorem size_lt (q : BufQueue) : q.size < queueSize := by
  have head := q.headLt
  have tail := q.tailLt
  unfold size
  split <;> omega

theorem tail_eq (q : BufQueue) : q.tail = (q.head + q.size) % queueSize := by
  have head := q.headLt
  have tail := q.tailLt
  unfold size
  unfold queueSize maxBufNum at *
  split <;> omega

theorem tail_eq_head_iff (q : BufQueue) : q.tail = q.head ↔ q.contents = [] := by
  have head := q.headLt
  have tail := q.tailLt
  rw [← List.length_eq_zero_iff, contents_length]
  unfold size
  split <;> omega

theorem full_iff (q : BufQueue) : (q.tail + 1) % queueSize = q.head ↔ q.size = maxBufNum := by
  have head := q.headLt
  have tail := q.tailLt
  unfold size
  unfold queueSize maxBufNum at *
  split <;> omega

theorem queueBuf_contents (q : BufQueue) (idx : Int) (room : q.contents.length < maxBufNum) :
    (q.queueBuf idx).2 = 0 ∧ (q.queueBuf idx).1.contents = q.contents ++ [idx] := by
  rw [contents_length] at room
  have notFull : ¬ (q.tail + 1) % queueSize = q.head := by
    rw [full_iff]
    omega
  rw [queueBuf, if_neg notFull]
  refine ⟨rfl, ?_⟩
  have head := q.headLt
  have tail := q.tailLt
  have place := q.tail_eq
  have grown : size { q with
      list := writeAt q.list q.tail [idx]
      tail := (q.tail + 1) % queueSize
      tailLt := Nat.mod_lt _ (by decide) } = q.size + 1 := by
    unfold size
    unfold queueSize maxBufNum at *
    simp only
    split <;> split <;> omega
  unfold contents
  rw [grown]
  simp only [readCyclic, List.range_succ, List.map_append, List.map_singleton]
  congr 1
  · apply List.map_congr_left
    intro i member
    have bound := List.mem_range.mp member
    refine writeAt_outside _ _ _ _ ?_
    rw [place]
    simp only [List.length_singleton]
    unfold queueSize maxBufNum at *
    omega
  · have written := writeAt_inside q.list q.tail [idx] 0 (by simp)
    rw [Nat.add_zero] at written
    rw [Nat.zero_add, ← place, written]
    rfl

theorem dequeueBuf_contents (q : BufQueue) (idx : Int) (rest : List Int)
    (holds : q.contents = idx :: rest) :
    q.dequeueBuf.2 = idx ∧ q.dequeueBuf.1.contents = rest := by
  have notEmpty : ¬ q.tail = q.head := by
    rw [tail_eq_head_iff, holds]
    simp
  have head := q.headLt
  have tail := q.tailLt
  rw [dequeueBuf, if_neg notEmpty]
  have shrunk : q.size = size { q with
      head := (q.head + 1) % queueSize
      headLt := Nat.mod_lt _ (by decide) } + 1 := by
    unfold size
    unfold queueSize maxBufNum at *
    simp only
    split <;> split <;> omega
  have split : q.contents = q.list q.head ::
      contents { q with
        head := (q.head + 1) % queueSize
        headLt := Nat.mod_lt _ (by decide) } := by
    unfold contents
    rw [shrunk]
    simp only [readCyclic, List.range_succ_eq_map, List.map_cons, List.map_map]
    congr 1
    · rw [Nat.zero_add, Nat.add_zero, Nat.mod_eq_of_lt head]
    · apply List.map_congr_left
      intro i member
      simp only [Function.comp, Nat.succ_eq_add_one]
      congr 2
      unfold queueSize maxBufNum
      omega
  rw [holds] at split
  obtain ⟨same, tail⟩ := List.cons.inj split
  exact ⟨same.symm, tail.symm⟩

theorem dequeueBuf_empty (q : BufQueue) (empty : q.contents = []) : q.dequeueBuf = (q, -1) := by
  rw [dequeueBuf, if_pos ((tail_eq_head_iff q).mpr empty)]

theorem queueBuf_full (q : BufQueue) (idx : Int) (full : ¬ q.contents.length < maxBufNum) :
    q.queueBuf idx = (q, -1) := by
  have bound := q.size_lt
  rw [contents_length] at full
  unfold queueSize at bound
  rw [queueBuf, if_pos ((full_iff q).mpr (by omega))]

/-! ## Histories of calls -/

inductive Call where
  | queueBuf (idx : Int)
  | dequeueBuf
  | peekNextBuf
  | queueSize
  deriving DecidableEq, Repr

def perform (q : BufQueue) : Call → BufQueue × Int
  | .queueBuf idx => q.queueBuf idx
  | .dequeueBuf => q.dequeueBuf
  | .peekNextBuf => (q, q.peekNextBuf)
  | .queueSize => (q, q.size)

/-- The calls on a list that holds at most `MAX_BUF_NUM` indices, oldest first. -/
def performFifo (held : List Int) : Call → List Int × Int
  | .queueBuf idx => if held.length = maxBufNum then (held, -1) else (held ++ [idx], 0)
  | .dequeueBuf => (held.tail, held.head?.getD (-1))
  | .peekNextBuf => (held, held.head?.getD (-1))
  | .queueSize => (held, held.length)

def runCalls {Held : Type} (perform : Held → Call → Held × Int) :
    List Call → Held → Held × List Int
  | [], held => (held, [])
  | call :: rest, held =>
      let done := perform held call
      let later := runCalls perform rest done.1
      (later.1, done.2 :: later.2)

theorem contents_le (q : BufQueue) : q.contents.length ≤ maxBufNum := by
  rw [contents_length]
  exact Nat.le_of_lt_succ q.size_lt

theorem peekNextBuf_eq (q : BufQueue) : q.peekNextBuf = q.contents.head?.getD (-1) := by
  rw [peekNextBuf]
  cases holds : q.contents with
  | nil => rw [if_pos ((tail_eq_head_iff q).mpr holds)]; rfl
  | cons idx rest =>
      have some : ¬ q.tail = q.head := by
        rw [tail_eq_head_iff, holds]
        exact List.cons_ne_nil idx rest
      have taken := (dequeueBuf_contents q idx rest holds).1
      rw [dequeueBuf, if_neg some] at taken
      rw [if_neg some]
      exact taken

theorem perform_fifo (q : BufQueue) (call : Call) :
    ((q.perform call).1.contents, (q.perform call).2) = performFifo q.contents call := by
  cases call with
  | queueBuf idx =>
      by_cases full : q.contents.length = maxBufNum
      · rw [perform, performFifo, if_pos full, queueBuf_full q idx (by omega)]
      · have bound := q.contents_le
        obtain ⟨ret, contents⟩ := queueBuf_contents q idx (by omega)
        rw [perform, performFifo, if_neg full, ret, contents]
  | dequeueBuf =>
      cases holds : q.contents with
      | nil =>
          rw [perform, dequeueBuf_empty q holds, holds]
          rfl
      | cons idx rest =>
          obtain ⟨ret, contents⟩ := dequeueBuf_contents q idx rest holds
          rw [perform, ret, contents]
          rfl
  | peekNextBuf => rw [perform, performFifo, peekNextBuf_eq]
  | queueSize => rw [perform, performFifo, contents_length]

theorem runCalls_fifo (q : BufQueue) (calls : List Call) :
    ((runCalls perform calls q).1.contents, (runCalls perform calls q).2) =
      runCalls performFifo calls q.contents := by
  induction calls generalizing q with
  | nil => rfl
  | cons call rest ih =>
      have later := ih (q.perform call).1
      rw [runCalls, runCalls, ← perform_fifo, ← later]

/-- In every history the queue gives the results of the list and holds what the list holds;
a queue that is full stays as it is. -/
theorem history_fifo (list : Nat → Int) (calls : List Call) :
    ((runCalls perform calls (empty list)).1.contents,
        (runCalls perform calls (empty list)).2) = runCalls performFifo calls [] ∧
      (runCalls perform calls (empty list)).1.head < queueSize ∧
      (runCalls perform calls (empty list)).1.tail < queueSize ∧
      ∀ idx, (runCalls perform calls (empty list)).1.contents.length = maxBufNum →
        (runCalls perform calls (empty list)).1.queueBuf idx =
          ((runCalls perform calls (empty list)).1, -1) := by
  refine ⟨?_, BufQueue.headLt _, BufQueue.tailLt _, ?_⟩
  · rw [runCalls_fifo, contents_empty]
  · intro idx full
    exact queueBuf_full _ idx (by omega)

end BufQueue

end ImxTest.Vpu
