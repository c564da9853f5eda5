import Mathlib.Data.List.Basic
import Mathlib.Data.Nat.ModEq
import Mathlib.Tactic.Common

/-!
# Stores and loads of byte runs, straight and cyclic

A memory is a function from addresses to cells.  `writeAt` stores a run of
cells, `writeRuns` several of them, `readAt` loads one, and `readCyclic` loads a run
from a buffer that continues at its base after its last cell.
-/

set_option autoImplicit false

namespace ImxTest.Lib.ByteMem

universe u

variable {Cell : Type u}

def writeAt (mem : Nat → Cell) (addr : Nat) (cells : List Cell) : Nat → Cell :=
  fun a => if addr ≤ a then (cells[a - addr]?).getD (mem a) else mem a

def readAt (mem : Nat → Cell) (addr count : Nat) : List Cell :=
  (List.range count).map fun i => mem (addr + i)

/-- `count` cells from offset `pos` of the buffer of `size` cells at `base`. -/
def readCyclic (mem : Nat → Cell) (base size pos count : Nat) : List Cell :=
  (List.range count).map fun i => mem (base + (pos + i) % size)

def writeRuns (mem : Nat → Cell) (runs : List (Nat × List Cell)) : Nat → Cell :=
  runs.foldl (fun mem run => writeAt mem run.1 run.2) mem

@[simp]
theorem readAt_length (mem : Nat → Cell) (addr count : Nat) :
    (readAt mem addr count).length = count := by
  simp [readAt]

@[simp]
theorem readCyclic_length (mem : Nat → Cell) (base size pos count : Nat) :
    (readCyclic mem base size pos count).length = count := by
  simp [readCyclic]

theorem readAt_add (mem : Nat → Cell) (addr first second : Nat) :
    readAt mem addr (first + second) =
      readAt mem addr first ++ readAt mem (addr + first) second := by
  unfold readAt
  rw [List.range_add, List.map_append, List.map_map]
  congr 1
  apply List.map_congr_left
  intro i _
  rw [Function.comp, Nat.add_assoc]

/-- A run is made up of rows that have no gaps between them. -/
theorem readAt_rows (mem : Nat → Cell) (addr rows width : Nat) :
    readAt mem addr (rows * width) =
      (List.range rows).flatMap fun row => readAt mem (addr + row * width) width := by
  induction rows with
  | zero => simp [readAt]
  | succ rows ih =>
      rw [Nat.succ_mul, readAt_add, ih, List.range_succ, List.flatMap_append]
      simp

theorem writeAt_inside (mem : Nat → Cell) (addr : Nat) (cells : List Cell) (i : Nat)
    (inside : i < cells.length) : writeAt mem addr cells (addr + i) = cells[i] := by
  simp [writeAt, List.getElem?_eq_getElem inside]

theorem writeAt_outside (mem : Nat → Cell) (addr : Nat) (cells : List Cell) (a : Nat)
    (outside : a < addr ∨ addr + cells.length ≤ a) : writeAt mem addr cells a = mem a := by
  unfold writeAt
  split
  · have past : cells.length ≤ a - addr := by omega
    simp [List.getElem?_eq_none past]
  · rfl

theorem writeRuns_outside (mem : Nat → Cell) (runs : List (Nat × List Cell)) (a : Nat)
    (outside : ∀ run ∈ runs, ∀ i < run.2.length, run.1 + i ≠ a) :
    writeRuns mem runs a = mem a := by
  induction runs generalizing mem with
  | nil => rfl
  | cons run runs ih =>
      have rest := ih (writeAt mem run.1 run.2) fun other member =>
        outside other (List.mem_cons_of_mem _ member)
      refine rest.trans (writeAt_outside mem run.1 run.2 a ?_)
      by_contra inside
      have hit := outside run List.mem_cons_self (a - run.1) (by omega)
      omega

theorem readAt_writeAt_same (mem : Nat → Cell) (addr : Nat) (cells : List Cell) :
    readAt (writeAt mem addr cells) addr cells.length = cells := by
  apply List.ext_getElem
  · simp
  · intro i _ inside
    simp only [readAt, List.getElem_map, List.getElem_range]
    exact writeAt_inside mem addr cells i inside

theorem readAt_writeAt_apart (mem : Nat → Cell) (addr : Nat) (cells : List Cell)
    (start count : Nat) (apart : start + count ≤ addr ∨ addr + cells.length ≤ start) :
    readAt (writeAt mem addr cells) start count = readAt mem start count := by
  unfold readAt
  apply List.map_congr_left
  intro i member
  have bound := List.mem_range.mp member
  exact writeAt_outside mem addr cells (start + i) (by omega)

theorem readCyclic_split (mem : Nat → Cell) (base size pos count n : Nat) (fits : n ≤ count) :
    readCyclic mem base size pos count = readCyclic mem base size pos n ++
      readCyclic mem base size ((pos + n) % size) (count - n) := by
  have split : count = n + (count - n) := by omega
  unfold readCyclic
  conv_lhs => rw [split, List.range_add, List.map_append, List.map_map]
  congr 1
  apply List.map_congr_left
  intro i _
  rw [Nat.mod_add_mod, Nat.add_assoc]
  rfl

theorem cyclic_inj {size pos i j : Nat} (iInside : i < size) (jInside : j < size)
    (same : (pos + i) % size = (pos + j) % size) : i = j := by
  have congruent : i ≡ j [MOD size] := Nat.ModEq.add_left_cancel' pos same
  exact Nat.ModEq.eq_of_lt_of_lt congruent iInside jInside

/-- A cyclic run is kept by stores that are all behind it in its turn. -/
theorem readCyclic_writeRuns (mem : Nat → Cell) (base size pos count : Nat)
    (runs : List (Nat × List Cell))
    (behind : ∀ run ∈ runs, ∀ i < run.2.length, ∃ k, count ≤ k ∧ k < size ∧
      run.1 + i = base + (pos + k) % size) :
    readCyclic (writeRuns mem runs) base size pos count = readCyclic mem base size pos count := by
  unfold readCyclic
  apply List.map_congr_left
  intro j member
  have bound := List.mem_range.mp member
  apply writeRuns_outside
  intro run stored i inside hit
  obtain ⟨k, past, turn, place⟩ := behind run stored i inside
  have same : (pos + k) % size = (pos + j) % size := by omega
  have := cyclic_inj turn (by omega) same
  omega

/-- A run that ends inside the buffer is a straight run. -/
theorem readCyclic_straight (mem : Nat → Cell) (base size pos count : Nat)
    (fits : pos + count ≤ size) :
    readCyclic mem base size pos count = readAt mem (base + pos) count := by
  unfold readCyclic readAt
  apply List.map_congr_left
  intro i member
  have bound := List.mem_range.mp member
  rw [Nat.mod_eq_of_lt (by omega), Nat.add_assoc]

theorem readCyclic_wrap (mem : Nat → Cell) (base size pos room more : Nat)
    (reaches : pos + room = size) (fits : more ≤ size) :
    readCyclic mem base size pos (room + more) =
      readAt mem (base + pos) room ++ readAt mem base more := by
  unfold readCyclic readAt
  rw [List.range_add, List.map_append, List.map_map]
  congr 1
  · apply List.map_congr_left
    intro i member
    have bound := List.mem_range.mp member
    rw [Nat.mod_eq_of_lt (by omega), Nat.add_assoc]
  · apply List.map_congr_left
    intro i member
    have bound := List.mem_range.mp member
    simp only [Function.comp]
    rw [← Nat.add_assoc, reaches, Nat.add_mod_left, Nat.mod_eq_of_lt (by omega)]

end ImxTest.Lib.ByteMem
