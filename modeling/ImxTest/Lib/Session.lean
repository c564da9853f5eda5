import Mathlib.Data.List.Basic

/-!
# Sessions in a trace of calls

An opening call starts a session.  What follows it up to the next boundary must be
exactly the calls that a session expects.
-/

set_option autoImplicit false

namespace ImxTest.Lib.Session

universe u

variable {Call : Type u} {opens boundary : Call → Bool} {expected : List Call}

/-- Every session of the trace has the expected calls before the next boundary. -/
def Completes (opens boundary : Call → Bool) (expected trace : List Call) : Prop :=
  ∀ before opening after, trace = before ++ opening :: after → opens opening = true →
    after.takeWhile (fun call => !boundary call) = expected

theorem completes_nil : Completes opens boundary expected [] := by
  intro before opening after split
  simp at split

theorem completes_cons (call : Call) (rest : List Call) :
    Completes opens boundary expected (call :: rest) ↔
      (opens call = true → rest.takeWhile (fun call => !boundary call) = expected) ∧
        Completes opens boundary expected rest := by
  constructor
  · intro completes
    refine ⟨completes [] call rest rfl, ?_⟩
    rintro before opening after rfl
    exact completes (call :: before) opening after rfl
  · rintro ⟨here, later⟩ before opening after split
    cases before with
    | nil =>
        obtain ⟨rfl, rfl⟩ := List.cons.inj split
        exact here
    | cons first before =>
        obtain ⟨rfl, rfl⟩ := List.cons.inj split
        exact later before opening after rfl

/-- A boundary ends the last session of what was before it. -/
theorem takeWhile_append_boundary (first second : List Call)
    (starts : ∀ call ∈ second.head?, boundary call = true) :
    (first ++ second).takeWhile (fun call => !boundary call) =
      first.takeWhile (fun call => !boundary call) := by
  induction first with
  | nil =>
      cases second with
      | nil => rfl
      | cons call rest => simp [starts call rfl]
  | cons call rest ih => simp only [List.cons_append, List.takeWhile_cons, ih]

theorem completes_append (first second : List Call)
    (starts : ∀ call ∈ second.head?, boundary call = true) :
    Completes opens boundary expected (first ++ second) ↔
      Completes opens boundary expected first ∧ Completes opens boundary expected second := by
  induction first with
  | nil => simp [completes_nil]
  | cons call rest ih =>
      rw [List.cons_append, completes_cons, completes_cons, ih,
        takeWhile_append_boundary rest second starts, and_assoc]

end ImxTest.Lib.Session
