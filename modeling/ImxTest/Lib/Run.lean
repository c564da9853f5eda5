import Mathlib.Data.List.Basic

/-!
# Runs of partial step functions

A system is a partial function `step : State → Event → Option State`; `none`
means that the event is not possible in that state.  An interleaving of
several threads is a run whose events name the thread that moves.  The rules
below carry a property of single steps to whole runs and to every state met on
the way.
-/

set_option autoImplicit false

namespace ImxTest.Lib.Run

universe u v

variable {State : Type u} {Event : Type v}

def runEvents (step : State → Event → Option State) :
    List Event → State → Option State
  | [], state => some state
  | event :: rest, state => do
      let next ← step state event
      runEvents step rest next

/-- Every step of the run meets a condition on the state before it. -/
def StepsMeet (step : State → Event → Option State)
    (meets : State → Event → Prop) : List Event → State → Prop
  | [], _ => True
  | event :: rest, state =>
      ∀ next, step state event = some next →
        meets state event ∧ StepsMeet step meets rest next

/-- The property holds in the start state and after every step of the run. -/
def Throughout (step : State → Event → Option State) (property : State → Prop) :
    List Event → State → Prop
  | [], state => property state
  | event :: rest, state =>
      property state ∧
        ∀ next, step state event = some next → Throughout step property rest next

section Rules
variable {step : State → Event → Option State}

theorem stepsMeet_cons {meets : State → Event → Prop} {event : Event} {rest : List Event}
    {state next : State} (head : step state event = some next) :
    StepsMeet step meets (event :: rest) state ↔
      meets state event ∧ StepsMeet step meets rest next := by
  constructor
  · intro meet
    exact meet next head
  · intro meet other same
    obtain rfl := Option.some.inj (head.symm.trans same)
    exact meet

theorem StepsMeet.and_mem {meets : State → Event → Prop} {allowed : Event → Prop}
    {events : List Event} {state : State} (meet : StepsMeet step meets events state)
    (all : ∀ event ∈ events, allowed event) :
    StepsMeet step (fun state event => meets state event ∧ allowed event) events state := by
  induction events generalizing state with
  | nil => trivial
  | cons event rest ih =>
      intro next head
      obtain ⟨here, later⟩ := meet next head
      exact ⟨⟨here, all event (List.mem_cons_self ..)⟩,
        ih later fun one mem => all one (List.mem_cons_of_mem _ mem)⟩

/-- Whether a run meets a decidable condition is found by running it. -/
def decideStepsMeet (meets : State → Event → Prop) [∀ state event, Decidable (meets state event)] :
    ∀ events state, Decidable (StepsMeet step meets events state)
  | [], _ => .isTrue trivial
  | event :: rest, state =>
      match head : step state event with
      | none => .isTrue fun next same => by simp [head] at same
      | some next =>
          have := decideStepsMeet meets rest next
          decidable_of_iff _ (stepsMeet_cons head).symm

instance (meets : State → Event → Prop) [∀ state event, Decidable (meets state event)]
    (events : List Event) (state : State) : Decidable (StepsMeet step meets events state) :=
  decideStepsMeet meets events state

theorem runEvents_cons (event : Event) (rest : List Event) (state final : State) :
    runEvents step (event :: rest) state = some final ↔
      ∃ next, step state event = some next ∧ runEvents step rest next = some final := by
  simp only [runEvents, Option.bind_eq_bind, Option.bind_eq_some_iff]

theorem runEvents_append (first second : List Event) (state final : State) :
    runEvents step (first ++ second) state = some final ↔
      ∃ middle, runEvents step first state = some middle ∧
        runEvents step second middle = some final := by
  induction first generalizing state with
  | nil => simp [runEvents]
  | cons event rest ih =>
      rw [List.cons_append, runEvents_cons]
      constructor
      · rintro ⟨next, head, tail⟩
        obtain ⟨middle, firstRun, secondRun⟩ := (ih next).mp tail
        exact ⟨middle, (runEvents_cons _ _ _ _).mpr ⟨next, head, firstRun⟩, secondRun⟩
      · rintro ⟨middle, firstRun, secondRun⟩
        obtain ⟨next, head, tail⟩ := (runEvents_cons _ _ _ _).mp firstRun
        exact ⟨next, head, (ih next).mpr ⟨middle, tail, secondRun⟩⟩

/-- Some run of allowed events leads there. -/
def Leads (step : State → Event → Option State) (allowed : Event → Prop)
    (start final : State) : Prop :=
  ∃ events, (∀ event ∈ events, allowed event) ∧ runEvents step events start = some final

theorem Leads.refl {allowed : Event → Prop} (state : State) : Leads step allowed state state :=
  ⟨[], by simp, rfl⟩

theorem Leads.trans {allowed : Event → Prop} {start middle final : State}
    (first : Leads step allowed start middle) (second : Leads step allowed middle final) :
    Leads step allowed start final := by
  obtain ⟨events, allowed, run⟩ := first
  obtain ⟨later, allowedLater, runLater⟩ := second
  refine ⟨events ++ later, ?_, (runEvents_append _ _ _ _).mpr ⟨middle, run, runLater⟩⟩
  intro event mem
  rcases List.mem_append.mp mem with early | late
  · exact allowed event early
  · exact allowedLater event late

/-- Two systems that agree on the events of a run have the same run. -/
theorem runEvents_congr {other : State → Event → Option State} (events : List Event)
    (start : State) (same : ∀ event ∈ events, ∀ state, step state event = other state event) :
    runEvents step events start = runEvents other events start := by
  induction events generalizing start with
  | nil => rfl
  | cons event rest ih =>
      have head := same event (List.mem_cons_self ..)
      have tail := fun next => ih next fun later mem => same later (List.mem_cons_of_mem _ mem)
      simp only [runEvents, head start, tail]

/-- The invariant rule: what every step preserves, every run preserves. -/
theorem runEvents_preserves {inv : State → Prop}
    (preserved : ∀ state event next, inv state → step state event = some next → inv next)
    (events : List Event) (start final : State) (holds : inv start)
    (run : runEvents step events start = some final) : inv final := by
  induction events generalizing start with
  | nil =>
      simp only [runEvents, Option.some.injEq] at run
      exact run ▸ holds
  | cons event rest ih =>
      obtain ⟨next, head, tail⟩ := (runEvents_cons _ _ _ _).mp run
      exact ih next (preserved start event next holds head) tail

/-- An invariant that every step meeting the condition keeps gives its property
throughout a run of such steps. -/
theorem throughout_of_stepsMeet {inv property : State → Prop} {meets : State → Event → Prop}
    (implies : ∀ state, inv state → property state)
    (preserved : ∀ state event next, inv state → meets state event →
      step state event = some next → inv next)
    (events : List Event) (start : State) (holds : inv start)
    (meet : StepsMeet step meets events start) : Throughout step property events start := by
  induction events generalizing start with
  | nil => exact implies start holds
  | cons event rest ih =>
      refine ⟨implies start holds, ?_⟩
      intro next head
      obtain ⟨here, later⟩ := meet next head
      exact ih next (preserved start event next holds here head) later

/-- The invariant rule for runs all of whose steps meet a condition. -/
theorem runEvents_of_stepsMeet {inv : State → Prop} {meets : State → Event → Prop}
    (preserved : ∀ state event next, inv state → meets state event →
      step state event = some next → inv next)
    (events : List Event) (start final : State) (holds : inv start)
    (meet : StepsMeet step meets events start)
    (run : runEvents step events start = some final) : inv final := by
  induction events generalizing start with
  | nil =>
      simp only [runEvents, Option.some.injEq] at run
      exact run ▸ holds
  | cons event rest ih =>
      obtain ⟨next, head, tail⟩ := (runEvents_cons _ _ _ _).mp run
      obtain ⟨here, later⟩ := meet next head
      exact ih next (preserved start event next holds here head) later tail

theorem throughout_start {property : State → Prop} {events : List Event} {start : State}
    (holds : Throughout step property events start) : property start := by
  cases events with
  | nil => exact holds
  | cons event rest => exact holds.1

/-- When the condition on single steps is exactly what keeps the property, a
run meets it at every step iff the property holds throughout. -/
theorem throughout_iff_stepsMeet {inv property : State → Prop}
    {meets : State → Event → Prop}
    (preserved : ∀ state event next, inv state → step state event = some next → inv next)
    (exact : ∀ state event next, inv state → property state →
      step state event = some next → (property next ↔ meets state event))
    (events : List Event) (start : State) (holds : inv start) (initial : property start) :
    Throughout step property events start ↔ StepsMeet step meets events start := by
  induction events generalizing start with
  | nil => exact ⟨fun _ => trivial, fun _ => initial⟩
  | cons event rest ih =>
      simp only [Throughout, StepsMeet]
      constructor
      · rintro ⟨_, later⟩ next head
        have nextProperty : property next := throughout_start (later next head)
        refine ⟨(exact start event next holds initial head).mp nextProperty, ?_⟩
        exact (ih next (preserved start event next holds head) nextProperty).mp
          (later next head)
      · intro meet
        refine ⟨initial, ?_⟩
        intro next head
        obtain ⟨here, later⟩ := meet next head
        have nextProperty := (exact start event next holds initial head).mpr here
        exact (ih next (preserved start event next holds head) nextProperty).mpr later

end Rules

end ImxTest.Lib.Run
