import Mathlib.Data.Set.Finite.Basic
import Mathlib.Data.Set.Finite.Lattice
import Mathlib.Tactic.Common

/-!
# Programs that may not end

A program that may not end is a function of its fuel, which gives the reason `running`
where the fuel does not last.  A loop over finitely many states ends just when it does not
come to a state for the second time.
-/

set_option autoImplicit false

namespace ImxTest.Lib.Fuel

universe u

section Programs
variable {Stop : Type u} {Value Next : Type u} (running : Stop)

/-- With enough fuel the program has this result. -/
def Settles (run : Nat → Except Stop Value) (result : Except Stop Value) : Prop :=
  ∃ enough, ∀ fuel ≥ enough, run fuel = result

/-- With enough fuel the program has a result of its own. -/
def Ends (run : Nat → Except Stop Value) : Prop :=
  ∃ result, result ≠ .error running ∧ Settles run result

/-- Fuel that is not needed changes nothing. -/
def Steady (run : Nat → Except Stop Value) : Prop :=
  ∀ fuel more, fuel ≤ more → run fuel ≠ .error running → run more = run fuel

variable {running}

theorem ends_ok (value : Value) : Ends running fun _ => (.ok value : Except Stop Value) :=
  ⟨.ok value, nofun, 0, fun _ _ => rfl⟩

namespace Steady

theorem const (result : Except Stop Value) : Steady running fun _ => result :=
  fun _ _ _ _ => rfl

theorem settles {run : Nat → Except Stop Value} (steady : Steady running run) {fuel : Nat}
    (ended : run fuel ≠ .error running) : Settles run (run fuel) :=
  ⟨fuel, fun more enough => steady fuel more enough ended⟩

theorem ends_iff {run : Nat → Except Stop Value} (steady : Steady running run) :
    Ends running run ↔ ∃ fuel, run fuel ≠ .error running := by
  constructor
  · rintro ⟨result, own, enough, same⟩
    exact ⟨enough, same enough le_rfl ▸ own⟩
  · rintro ⟨fuel, ended⟩
    exact ⟨run fuel, ended, steady.settles ended⟩

theorem ok_more {run : Nat → Except Stop Value} (steady : Steady running run) {fuel more : Nat}
    (le : fuel ≤ more) {value : Value} (given : run fuel = .ok value) : run more = .ok value :=
  (steady fuel more le (by rw [given]; exact nofun)).trans given

theorem ok_unique {run : Nat → Except Stop Value} (steady : Steady running run) {m n : Nat}
    {one two : Value} (first : run m = .ok one) (second : run n = .ok two) : one = two :=
  Except.ok.inj ((steady.ok_more (le_max_left m n) first).symm.trans
    (steady.ok_more (le_max_right m n) second))

variable {first : Nat → Except Stop Value} {next : Nat → Value → Except Stop Next}

theorem bind (head : Steady running first)
    (tail : ∀ value, Steady running fun fuel => next fuel value) :
    Steady running fun fuel => first fuel >>= next fuel := by
  intro fuel more le ended
  have headEnded : first fuel ≠ .error running := by
    intro out
    exact ended (by simp only [out]; rfl)
  have same := head fuel more le headEnded
  dsimp only at ended ⊢
  rw [same]
  cases given : first fuel with
  | error stop => rfl
  | ok value =>
      rw [given] at ended
      exact tail value fuel more le ended

theorem ends_bind (head : Steady running first) :
    Ends running (fun fuel => first fuel >>= next fuel) ↔
      Ends running first ∧ ∀ fuel value, first fuel = .ok value →
        Ends running fun fuel => next fuel value := by
  constructor
  · rintro ⟨result, own, enough, same⟩
    have headEnded : first enough ≠ .error running := by
      intro out
      have ended := same enough le_rfl
      simp only [out] at ended
      exact own ended.symm
    refine ⟨⟨_, headEnded, head.settles headEnded⟩, fun settled value given => ?_⟩
    refine ⟨result, own, max enough settled, fun fuel above => ?_⟩
    have ended := same fuel ((le_max_left _ _).trans above)
    have late := head settled fuel ((le_max_right _ _).trans above) (by rw [given]; exact nofun)
    dsimp only at ended
    rw [late, given] at ended
    exact ended
  · rintro ⟨⟨result, own, enough, given⟩, later⟩
    cases result with
    | error stop =>
        refine ⟨.error stop, fun same => own (by cases same; rfl), enough, fun fuel above => ?_⟩
        dsimp only
        rw [given fuel above]
        rfl
    | ok value =>
        obtain ⟨result, own, nextEnough, nextGiven⟩ := later enough value (given enough le_rfl)
        refine ⟨result, own, max enough nextEnough, fun fuel above => ?_⟩
        dsimp only
        rw [given fuel ((le_max_left _ _).trans above)]
        exact nextGiven fuel ((le_max_right _ _).trans above)

theorem ends_bind_of_next (head : Steady running first)
    (later : ∀ value, Ends running fun fuel => next fuel value) :
    Ends running (fun fuel => first fuel >>= next fuel) ↔ Ends running first :=
  head.ends_bind.trans (and_iff_left fun _ value _ => later value)

end Steady

end Programs

/-! ## Loops -/

section Loops
variable {State : Type u} (step : State → Option State)

/-- The state after so many passes of a loop, which are fewer where it ends. -/
def after : Nat → State → Option State
  | 0, state => some state
  | passes + 1, state => (step state).bind (after passes)

def LeadsBack (start : State) : Prop :=
  ∃ i j state, i < j ∧ after step i start = some state ∧ after step j start = some state

variable {step}

theorem after_add (first second : Nat) (start : State) :
    after step (first + second) start = (after step first start).bind (after step second) := by
  induction first generalizing start with
  | zero => rw [Nat.zero_add, after, Option.bind_some]
  | succ first ih =>
      rw [Nat.succ_add, after, after]
      cases step start with
      | none => rfl
      | some next => exact ih next

/-- An invariant of the passes holds in every state of the loop. -/
theorem after_keeps {inv : State → Prop} (kept : ∀ state next, inv state → step state = some next →
    inv next) {passes : Nat} {start state : State} (holds : inv start)
    (reached : after step passes start = some state) : inv state := by
  induction passes generalizing start with
  | zero =>
      cases reached
      exact holds
  | succ passes ih =>
      obtain ⟨next, pass, rest⟩ := Option.bind_eq_some_iff.mp reached
      exact ih (kept start next holds pass) rest

/-- Behind a state that comes again the loop goes round. -/
theorem after_rounds {start state : State} {i round : Nat} (first : after step i start = some state)
    (again : after step (i + round) start = some state) (rounds : Nat) :
    after step (i + rounds * round) start = some state := by
  have circle : after step round state = some state := by
    rw [after_add, first] at again
    exact again
  induction rounds with
  | zero => rw [Nat.zero_mul]; exact first
  | succ rounds ih => rw [Nat.succ_mul, ← Nat.add_assoc, after_add, ih, Option.bind_some, circle]

/-- A loop over finitely many states ends unless it leads back. -/
theorem ends_iff_not_leadsBack {start : State}
    (finite : {state | ∃ passes, after step passes start = some state}.Finite) :
    (∃ passes, after step passes start = none) ↔ ¬ LeadsBack step start := by
  constructor
  · rintro ⟨passes, ended⟩ ⟨i, j, state, less, first, second⟩
    obtain ⟨gap, rfl⟩ := Nat.exists_eq_add_of_lt less
    have late : passes ≤ i + passes * (gap + 1) := by
      have rounds := Nat.le_mul_of_pos_right passes (show 0 < gap + 1 by omega)
      omega
    obtain ⟨more, long⟩ := Nat.exists_eq_add_of_le late
    have going := after_rounds first (Nat.add_assoc i gap 1 ▸ second) passes
    rw [long, after_add, ended] at going
    cases going
  · intro once
    by_contra always
    have going : ∀ passes, ∃ state, after step passes start = some state := by
      intro passes
      refine Option.ne_none_iff_exists'.mp fun ended => always ⟨passes, ended⟩
    choose visit visited using going
    have distinct : Function.Injective visit := by
      intro i j same
      by_contra different
      rcases Nat.lt_or_gt_of_ne different with less | less
      · exact once ⟨i, j, visit i, less, visited i, same ▸ visited j⟩
      · exact once ⟨j, i, visit j, less, visited j, same ▸ visited i⟩
    have infinite : {state | ∃ passes, after step passes start = some state}.Infinite :=
      Set.infinite_of_injective_forall_mem distinct fun passes => ⟨passes, visited passes⟩
    exact infinite finite

end Loops

end ImxTest.Lib.Fuel
