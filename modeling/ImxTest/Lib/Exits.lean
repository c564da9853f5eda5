import Mathlib.Logic.Basic

/-!
# Computations that may end the program

A computation of type `Except Stop Value` returns a value or ends with a reason.  Two
questions are asked of it: whether it returns, and whether it ends for a reason of some
kind.  The rules below answer both for a sequence from the answers for its parts.
-/

set_option autoImplicit false

namespace ImxTest.Lib.Exits

universe u

variable {Stop : Type u} {Value Next : Type u}

def EndsIn (kind : Stop → Prop) (run : Except Stop Value) : Prop :=
  ∃ stop, run = .error stop ∧ kind stop

def Returns (run : Except Stop Value) : Prop :=
  ∃ value, run = .ok value

theorem toOption_eq_some {run : Except Stop Value} {value : Value}
    (returned : run.toOption = some value) : run = .ok value := by
  cases run with
  | error stop => cases returned
  | ok other =>
      cases returned
      rfl

section Bind
variable {first : Except Stop Value} {next : Value → Except Stop Next}

theorem bind_ok (value : Value) : ((.ok value : Except Stop Value) >>= next) = next value :=
  rfl

theorem bind_eq_ok {result : Next} (returned : first >>= next = .ok result) :
    ∃ value, first = .ok value ∧ next value = .ok result := by
  cases first with
  | error stop => cases returned
  | ok value => exact ⟨value, rfl, returned⟩

theorem returns_ok (value : Value) : Returns (.ok value : Except Stop Value) ↔ True :=
  iff_of_true ⟨value, rfl⟩ trivial

theorem not_returns_error (stop : Stop) : ¬ Returns (.error stop : Except Stop Value) := by
  rintro ⟨value, returned⟩
  cases returned

theorem returns_bind {A B : Prop} (here : Returns first ↔ A)
    (later : ∀ value, Returns (next value) ↔ B) : Returns (first >>= next) ↔ A ∧ B := by
  rw [← here]
  cases first with
  | error stop =>
      refine iff_of_false (not_returns_error stop) ?_
      exact fun both => not_returns_error stop both.1
  | ok value => exact (later value).trans (and_iff_right ⟨value, rfl⟩).symm

variable {kind : Stop → Prop}

theorem not_endsIn_ok (value : Value) : ¬ EndsIn kind (.ok value : Except Stop Value) := by
  rintro ⟨stop, ended, -⟩
  cases ended

theorem endsIn_error (stop : Stop) :
    EndsIn kind (.error stop : Except Stop Value) ↔ kind stop := by
  constructor
  · rintro ⟨_, ended, isKind⟩
    cases ended
    exact isKind
  · exact fun isKind => ⟨stop, rfl, isKind⟩

/-- A sequence ends where its first part does, or where what follows does after the first
part has returned. -/
theorem endsIn_bind : EndsIn kind (first >>= next) ↔
    EndsIn kind first ∨ ∃ value, first = .ok value ∧ EndsIn kind (next value) := by
  cases first with
  | error stop =>
      have nothing : ¬ ∃ value, (.error stop : Except Stop Value) = .ok value ∧
          EndsIn kind (next value) := by
        rintro ⟨value, returned, -⟩
        cases returned
      rw [or_iff_left nothing, endsIn_error]
      exact endsIn_error stop
  | ok value =>
      constructor
      · exact fun ends => .inr ⟨value, rfl, ends⟩
      · rintro (ends | ⟨_, returned, ends⟩)
        · exact absurd ends (not_endsIn_ok value)
        · cases returned
          exact ends

theorem not_endsIn_bind (here : ¬ EndsIn kind first)
    (later : ∀ value, ¬ EndsIn kind (next value)) : ¬ EndsIn kind (first >>= next) := by
  rw [endsIn_bind]
  rintro (ends | ⟨value, -, ends⟩)
  · exact here ends
  · exact later value ends

/-- The same from conditions for the two parts, when that for the second does not depend
on the value. -/
theorem endsIn_bind_iff {A B C : Prop} (here : EndsIn kind first ↔ A)
    (returns : Returns first ↔ B) (later : ∀ value, EndsIn kind (next value) ↔ C) :
    EndsIn kind (first >>= next) ↔ A ∨ B ∧ C := by
  rw [endsIn_bind, here, ← returns]
  refine or_congr_right ?_
  constructor
  · rintro ⟨value, returned, ends⟩
    exact ⟨⟨value, returned⟩, (later value).mp ends⟩
  · rintro ⟨⟨value, returned⟩, ends⟩
    exact ⟨value, returned, (later value).mpr ends⟩

end Bind

end ImxTest.Lib.Exits
