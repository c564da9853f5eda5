import Mathlib.Algebra.Order.Ring.Int
import Mathlib.Data.List.Basic
import Mathlib.Tactic.Common
import Mathlib.Tactic.Ring

/-!
# Counting loops

`for (j = 0; j < limit; j += step)` over signed numbers.  The loop makes at most `limit`
turns, so that it needs no more fuel.  A loop that adds to a list adds what its turns
add, and loops over the columns of every row go through a table by rows.
-/

set_option autoImplicit false

namespace ImxTest.Lib.ForLoop

universe u v

section Loop
variable {State : Type u} (limit : Int) (step : Nat) (body : Int → State → State)

def forFrom : Nat → Int → State → State
  | 0, _, state => state
  | fuel + 1, j, state => if j < limit then forFrom fuel (j + step) (body j state) else state

def forLoop (state : State) : State :=
  forFrom limit step body limit.toNat 0 state

end Loop

section Rules
variable {State : Type u} {limit : Int} {step : Nat} {body : Int → State → State}
variable {Item : Type v} {list : State → List Item} {added : Int → List Item}
variable {inv : State → Prop}

/-- What a turn adds to a list that the state holds, the loop adds `turns` times. -/
theorem forFrom_appends (kept : ∀ j state, inv state → inv (body j state))
    (appends : ∀ j state, inv state → list (body j state) = list state ++ added j) (turns : Nat)
    {fuel : Nat} (enough : turns ≤ fuel) {j : Int} (going : ∀ k < turns, j + step * k < limit)
    (ends : limit ≤ j + step * turns) {state : State} (start : inv state) :
    list (forFrom limit step body fuel j state) =
      list state ++ (List.range turns).flatMap fun k : Nat => added (j + step * k) := by
  induction turns generalizing fuel j state with
  | zero =>
      rw [List.range_zero, List.flatMap_nil, List.append_nil]
      cases fuel with
      | zero => rfl
      | succ fuel =>
          have stop : ¬ j < limit := by simpa using ends
          rw [forFrom, if_neg stop]
  | succ turns ih =>
      cases fuel with
      | zero => omega
      | succ fuel =>
          have first : j < limit := by simpa using going 0 (Nat.succ_pos turns)
          have shift : ∀ k : Nat,
              j + step + step * (k : Int) = j + step * ((k + 1 : Nat) : Int) := by
            intro k
            push_cast
            ring
          have later : ∀ k < turns, j + step + step * (k : Int) < limit := by
            intro k small
            rw [shift]
            exact going (k + 1) (Nat.succ_lt_succ small)
          rw [forFrom, if_pos first, ih (Nat.le_of_succ_le_succ enough) later
              (by rw [shift]; exact ends) (kept j state start),
            appends j state start, List.range_succ_eq_map, List.flatMap_cons, List.flatMap_map,
            List.append_assoc]
          simp only [shift, Nat.cast_zero, mul_zero, add_zero]

theorem forLoop_appends (kept : ∀ j state, inv state → inv (body j state))
    (appends : ∀ j state, inv state → list (body j state) = list state ++ added j) {state : State}
    (start : inv state) :
    list (forLoop limit 1 body state) =
      list state ++ (List.range limit.toNat).flatMap fun k : Nat => added k := by
  rw [forLoop, forFrom_appends kept appends limit.toNat (Nat.le_refl _) _ _ start]
  · simp
  · intro k small
    push_cast
    omega
  · push_cast
    omega

theorem forFrom_keeps (kept : ∀ j state, inv state → inv (body j state)) (fuel : Nat) {j : Int}
    {state : State} (start : inv state) : inv (forFrom limit step body fuel j state) := by
  induction fuel generalizing j state with
  | zero => exact start
  | succ fuel ih =>
      rw [forFrom]
      split
      · exact ih (kept j state start)
      · exact start

end Rules

/-- A part of a row lies in the table. -/
theorem mul_add_le_mul {columns rows i j : Nat} (row : i < rows) (part : j ≤ columns) :
    columns * i + j ≤ columns * rows := by
  calc columns * i + j ≤ columns * (i + 1) := by rw [Nat.mul_succ]; omega
    _ ≤ columns * rows := Nat.mul_le_mul_left columns row

theorem range_mul_flatMap {Item : Type u} (columns rows : Nat) (item : Nat → Item) :
    ((List.range rows).flatMap fun i => (List.range columns).map fun j => item (columns * i + j)) =
      (List.range (columns * rows)).map item := by
  induction rows with
  | zero => rfl
  | succ rows ih =>
      rw [List.range_succ, List.flatMap_append, ih, Nat.mul_succ, List.range_add, List.map_append,
        List.map_map, List.flatMap_singleton]
      rfl

end ImxTest.Lib.ForLoop
