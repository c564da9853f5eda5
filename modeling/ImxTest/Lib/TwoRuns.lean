import Mathlib.Tactic.Common

/-!
# Two runs of computations that may stop

Computations over a state that either return a value or stop for good.  `Sim`
compares two of them from related states: what the left one returns, the right
one returns too, in a related state, and where the left one stops its state meets
`stopped`.  `Keeps` is the case of one computation run twice.  With a relation
that says the two states are equal and good it is a rule for invariants.
-/

set_option autoImplicit false

namespace ImxTest.Lib.TwoRuns

variable {Stop State : Type} {Value Other Next NextOther : Type}
variable {stopped : State → Prop} {related : State → State → Prop}

def Sim (stopped : State → Prop) (pre : State → State → Prop)
    (left : EStateM Stop State Value) (right : EStateM Stop State Other)
    (post : Value → Other → State → State → Prop) : Prop :=
  ∀ s t, pre s t →
    match left s with
    | .ok value s' => ∃ other t', right t = .ok other t' ∧ post value other s' t'
    | .error _ s' => stopped s'

/-- Both runs return the same value in related states. -/
def Same (related : State → State → Prop) (value other : Value) (s t : State) : Prop :=
  value = other ∧ related s t

def Keeps (stopped : State → Prop) (related : State → State → Prop)
    (run : EStateM Stop State Value) : Prop :=
  Sim stopped related run run (Same related)

section Sim
variable {pre : State → State → Prop} {left : EStateM Stop State Value}
variable {right : EStateM Stop State Other} {post : Value → Other → State → State → Prop}

theorem Sim.returns (sim : Sim stopped pre left right post) {s t s' : State} {value : Value}
    (before : pre s t) (returned : left s = .ok value s') :
    ∃ other t', right t = .ok other t' ∧ post value other s' t' := by
  have result := sim s t before
  rw [returned] at result
  exact result

theorem Sim.stops (sim : Sim stopped pre left right post) {s t s' : State} {stop : Stop}
    (before : pre s t) (ended : left s = .error stop s') : stopped s' := by
  have result := sim s t before
  rw [ended] at result
  exact result

theorem Sim.bind {next : Value → EStateM Stop State Next}
    {nextOther : Other → EStateM Stop State NextOther}
    {final : Next → NextOther → State → State → Prop}
    (first : Sim stopped pre left right post)
    (second : ∀ value other, Sim stopped (post value other) (next value) (nextOther other) final) :
    Sim stopped pre (left >>= next) (right >>= nextOther) final := by
  intro s t before
  have firstResult := first s t before
  simp only [Bind.bind, EStateM.bind]
  cases leftResult : left s with
  | error stop s' =>
      rw [leftResult] at firstResult
      exact firstResult
  | ok value s' =>
      rw [leftResult] at firstResult
      obtain ⟨other, t', rightResult, between⟩ := firstResult
      rw [rightResult]
      exact second value other s' t' between

theorem Sim.pure {value : Value} {other : Other}
    (holds : ∀ s t, pre s t → post value other s t) :
    Sim stopped pre (pure value : EStateM Stop State Value) (pure other) post := by
  intro s t before
  exact ⟨other, t, rfl, holds s t before⟩

theorem Sim.weaken {stronger : State → State → Prop}
    {weaker : Value → Other → State → State → Prop}
    (sim : Sim stopped pre left right post) (atStart : ∀ s t, stronger s t → pre s t)
    (atEnd : ∀ value other s t, post value other s t → weaker value other s t) :
    Sim stopped stronger left right weaker := by
  intro s t before
  have result := sim s t (atStart s t before)
  cases leftResult : left s with
  | error stop s' =>
      rw [leftResult] at result
      exact result
  | ok value s' =>
      rw [leftResult] at result
      obtain ⟨other, t', rightResult, after⟩ := result
      exact ⟨other, t', rightResult, atEnd value other s' t' after⟩

end Sim

/-! ## One computation, run twice -/

section Keeps
variable {run : EStateM Stop State Value}

theorem Keeps.returns (keeps : Keeps stopped related run) {s t s' : State} {value : Value}
    (before : related s t) (returned : run s = .ok value s') :
    ∃ t', run t = .ok value t' ∧ related s' t' := by
  obtain ⟨_, t', rightResult, rfl, after⟩ := Sim.returns keeps before returned
  exact ⟨t', rightResult, after⟩

theorem Keeps.pure (value : Value) :
    Keeps stopped related (pure value : EStateM Stop State Value) :=
  Sim.pure fun _ _ before => ⟨rfl, before⟩

theorem Keeps.bind {next : Value → EStateM Stop State Next}
    (first : Keeps stopped related run)
    (second : ∀ value, Keeps stopped related (next value)) :
    Keeps stopped related (run >>= next) := by
  refine Sim.bind first ?_
  rintro value other s t ⟨rfl, before⟩
  exact second value s t before

theorem Keeps.ite {condition : Prop} [Decidable condition]
    {otherwise : EStateM Stop State Value} (yes : Keeps stopped related run)
    (no : Keeps stopped related otherwise) :
    Keeps stopped related (if condition then run else otherwise) := by
  split
  · exact yes
  · exact no

end Keeps

end ImxTest.Lib.TwoRuns
