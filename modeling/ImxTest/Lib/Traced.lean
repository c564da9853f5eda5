import Mathlib.Data.List.Basic

/-!
# Programs that keep a log

A program reads and writes a state, notes what an observer sees of it and either
gives a value or leaves early.  State and log survive an early exit, as they do in a
function that jumps to its clean-up code.
-/

set_option autoImplicit false

namespace ImxTest.Lib.Traced

structure Outcome (State Note Exit α : Type) where
  log : List Note
  state : State
  value : Except Exit α

def Program (State Note Exit α : Type) : Type := State → Outcome State Note Exit α

variable {State Note Exit α β : Type}

def Outcome.andThen : Outcome State Note Exit α → (α → Program State Note Exit β) →
    Outcome State Note Exit β
  | ⟨log, state, .error exit⟩, _ => ⟨log, state, .error exit⟩
  | ⟨log, state, .ok value⟩, next =>
      let rest := next value state
      ⟨log ++ rest.log, rest.state, rest.value⟩

instance : Monad (Program State Note Exit) where
  pure value := fun state => ⟨[], state, .ok value⟩
  bind first next := fun state => (first state).andThen next

def quit (exit : Exit) : Program State Note Exit α := fun state => ⟨[], state, .error exit⟩

def note (seen : State → Note) : Program State Note Exit Unit :=
  fun state => ⟨[seen state], state, .ok ()⟩

def ask (read : State → α) : Program State Note Exit α :=
  fun state => ⟨[], state, .ok (read state)⟩

def change (update : State → State) : Program State Note Exit Unit :=
  fun state => ⟨[], update state, .ok ()⟩

section Apply
variable (state : State)

@[simp] theorem pure_apply (value : α) :
    (pure value : Program State Note Exit α) state = ⟨[], state, .ok value⟩ := rfl

@[simp] theorem quit_apply (exit : Exit) :
    (quit exit : Program State Note Exit α) state = ⟨[], state, .error exit⟩ := rfl

@[simp] theorem note_apply (seen : State → Note) :
    (note seen : Program State Note Exit Unit) state = ⟨[seen state], state, .ok ()⟩ := rfl

@[simp] theorem ask_apply (read : State → α) :
    (ask read : Program State Note Exit α) state = ⟨[], state, .ok (read state)⟩ := rfl

@[simp] theorem change_apply (update : State → State) :
    (change update : Program State Note Exit Unit) state = ⟨[], update state, .ok ()⟩ := rfl

@[simp] theorem bind_apply (first : Program State Note Exit α)
    (next : α → Program State Note Exit β) :
    (first >>= next) state = (first state).andThen next := rfl

@[simp] theorem discard_apply (program : Program State Note Exit α) :
    (discard program : Program State Note Exit PUnit) state =
      (program state).andThen fun _ => pure ⟨⟩ := rfl

end Apply

section AndThen
variable (log : List Note) (state : State) (next : α → Program State Note Exit β)

@[simp] theorem andThen_ok (value : α) :
    Outcome.andThen ⟨log, state, .ok value⟩ next =
      ⟨log ++ (next value state).log, (next value state).state, (next value state).value⟩ := rfl

@[simp] theorem andThen_error (exit : Exit) :
    Outcome.andThen ⟨log, state, .error exit⟩ next = ⟨log, state, .error exit⟩ := rfl

end AndThen

/-! ## What is noted -/

/-- The log holds a note of the wanted kind. -/
def Noted (wanted : Note → Prop) (log : List Note) : Prop := ∃ seen ∈ log, wanted seen

section Noted
variable {wanted : Note → Prop}

@[simp] theorem not_noted_nil : ¬ Noted wanted [] := by simp [Noted]

@[simp] theorem noted_cons {seen : Note} {rest : List Note} :
    Noted wanted (seen :: rest) ↔ wanted seen ∨ Noted wanted rest := by
  simp [Noted]

@[simp] theorem noted_append {first second : List Note} :
    Noted wanted (first ++ second) ↔ Noted wanted first ∨ Noted wanted second := by
  simp [Noted, or_and_right, exists_or]

theorem noted_andThen {done : Outcome State Note Exit α} {next : α → Program State Note Exit β} :
    Noted wanted (done.andThen next).log ↔
      Noted wanted done.log ∨
        ∃ value, done.value = .ok value ∧ Noted wanted (next value done.state).log := by
  obtain ⟨log, state, exit | value⟩ := done
  · simp
  · simp

end Noted

/-! ## What a program computes -/

/-- From this state the program gives the result, or leaves early where there is none, and
the state is as before. -/
def Computes (program : Program State Note Exit α) (state : State) (result : Option α) : Prop :=
  (program state).state = state ∧ (program state).value.toOption = result

namespace Computes
variable {state : State}

theorem pure (value : α) :
    Computes (Pure.pure value : Program State Note Exit α) state (some value) := ⟨rfl, rfl⟩

theorem quit (exit : Exit) :
    Computes (quit exit : Program State Note Exit α) state none := ⟨rfl, rfl⟩

theorem ask (read : State → α) :
    Computes (ask read : Program State Note Exit α) state (some (read state)) := ⟨rfl, rfl⟩

theorem bind {first : Program State Note Exit α} {next : α → Program State Note Exit β}
    {middle : Option α} {result : α → Option β} (head : Computes first state middle)
    (tail : ∀ value, middle = some value → Computes (next value) state (result value)) :
    Computes (first >>= next) state (middle.bind result) := by
  obtain ⟨kept, given⟩ := head
  unfold Computes
  rw [bind_apply]
  generalize first state = done at kept given ⊢
  obtain ⟨log, after, exit | value⟩ := done
  · obtain rfl := given
    exact ⟨kept, rfl⟩
  · obtain rfl := given
    obtain rfl := kept
    exact tail value rfl

/-- A part that always gives its value. -/
theorem next {first : Program State Note Exit α} {next : α → Program State Note Exit β}
    {value : α} {result : Option β} (head : Computes first state (some value))
    (tail : Computes (next value) state result) : Computes (first >>= next) state result :=
  head.bind fun _ same => Option.some.inj same ▸ tail

theorem stop {first : Program State Note Exit α} {next : α → Program State Note Exit β}
    (head : Computes first state none) : Computes (first >>= next) state none :=
  @bind _ _ _ _ _ _ _ next _ (fun _ => none) head fun _ absent => nomatch absent

theorem ite {condition : Prop} [Decidable condition] {yes no : Program State Note Exit α}
    {left right : Option α} (positive : condition → Computes yes state left)
    (negative : ¬ condition → Computes no state right) :
    Computes (if condition then yes else no) state (if condition then left else right) := by
  split
  · exact positive ‹_›
  · exact negative ‹_›

theorem discard {program : Program State Note Exit α} {value : α}
    (gives : Computes program state (some value)) :
    Computes (discard program) state (some ⟨⟩) :=
  gives.next (Computes.pure PUnit.unit)

theorem value_iff {program : Program State Note Exit α} {result : Option α}
    (gives : Computes program state result) {value : α} :
    (program state).value = .ok value ↔ result = some value := by
  obtain ⟨_, rfl⟩ := gives
  cases (program state).value with
  | error exit => simp [Except.toOption]
  | ok given => simp [Except.toOption]

end Computes

/-- Behind a program that leaves the state alone, the next one runs from the same state. -/
theorem Computes.noted_bind {wanted : Note → Prop} {first : Program State Note Exit α}
    {next : α → Program State Note Exit β} {state : State} {result : Option α}
    (gives : Computes first state result) :
    Noted wanted ((first >>= next) state).log ↔
      Noted wanted (first state).log ∨
        ∃ value, result = some value ∧ Noted wanted (next value state).log := by
  rw [bind_apply, noted_andThen, gives.1]
  simp only [gives.value_iff]

/-- A part without wanted notes that always gives its value. -/
theorem Computes.noted_next {wanted : Note → Prop} {first : Program State Note Exit α}
    {next : α → Program State Note Exit β} {state : State} {value : α}
    (gives : Computes first state (some value)) (quiet : ¬ Noted wanted (first state).log) :
    Noted wanted ((first >>= next) state).log ↔ Noted wanted (next value state).log := by
  rw [gives.noted_bind]
  simp [quiet]

/-! ## What a program keeps -/

/-- From a state with the invariant, the program notes only what is good and ends in a
state with the invariant, also where it leaves early. -/
def Keeps (inv : State → Prop) (good : Note → Prop) (program : Program State Note Exit α) : Prop :=
  ∀ state, inv state → (∀ seen ∈ (program state).log, good seen) ∧ inv (program state).state

namespace Keeps
variable {inv : State → Prop} {good : Note → Prop}

theorem pure (value : α) : Keeps inv good (Pure.pure value : Program State Note Exit α) :=
  fun _ start => ⟨by simp, start⟩

theorem quit (exit : Exit) : Keeps inv good (quit exit : Program State Note Exit α) :=
  fun _ start => ⟨by simp, start⟩

theorem ask (read : State → α) : Keeps inv good (ask read : Program State Note Exit α) :=
  fun _ start => ⟨by simp, start⟩

theorem note {seen : State → Note} (allowed : ∀ state, inv state → good (seen state)) :
    Keeps inv good (note seen : Program State Note Exit Unit) :=
  fun state start => ⟨by simpa using allowed state start, start⟩

theorem change {update : State → State} (kept : ∀ state, inv state → inv (update state)) :
    Keeps inv good (change update : Program State Note Exit Unit) :=
  fun state start => ⟨by simp, kept state start⟩

/-- The second part runs on a value that the first gives in a state with the invariant. -/
theorem bind {first : Program State Note Exit α} {next : α → Program State Note Exit β}
    (head : Keeps inv good first)
    (tail : ∀ value, (∃ state, inv state ∧ (first state).value = .ok value) →
      Keeps inv good (next value)) :
    Keeps inv good (first >>= next) := by
  intro state start
  obtain ⟨logged, kept⟩ := head state start
  have given : ∀ value, (first state).value = .ok value → Keeps inv good (next value) :=
    fun value same => tail value ⟨state, start, same⟩
  rw [bind_apply]
  generalize first state = done at logged kept given ⊢
  obtain ⟨log, after, exit | value⟩ := done
  · exact ⟨logged, kept⟩
  · obtain ⟨loggedNext, keptNext⟩ := given value rfl after kept
    refine ⟨?_, keptNext⟩
    intro seen mem
    rcases List.mem_append.mp mem with mem | mem
    · exact logged seen mem
    · exact loggedNext seen mem

theorem discard {program : Program State Note Exit α} (kept : Keeps inv good program) :
    Keeps inv good (discard program : Program State Note Exit PUnit) :=
  kept.bind fun _ _ => Keeps.pure PUnit.unit

theorem ite {condition : Prop} [Decidable condition] {yes no : Program State Note Exit α}
    (positive : condition → Keeps inv good yes) (negative : ¬ condition → Keeps inv good no) :
    Keeps inv good (if condition then yes else no) := by
  split
  · exact positive ‹_›
  · exact negative ‹_›

theorem not_noted {wanted : Note → Prop} {program : Program State Note Exit α} {state : State}
    (kept : Keeps inv (fun seen => ¬ wanted seen) program) (start : inv state) :
    ¬ Noted wanted (program state).log := by
  rintro ⟨seen, mem, holds⟩
  exact (kept state start).1 seen mem holds

end Keeps

def Leads (before after : State → Prop) (program : Program State Note Exit α) : Prop :=
  ∀ state, before state → after (program state).state

namespace Leads
variable {before after : State → Prop}

theorem pure (weaker : ∀ state, before state → after state) (value : α) :
    Leads before after (Pure.pure value : Program State Note Exit α) :=
  weaker

theorem quit (weaker : ∀ state, before state → after state) (exit : Exit) :
    Leads before after (quit exit : Program State Note Exit α) :=
  weaker

theorem note (weaker : ∀ state, before state → after state) (seen : State → Note) :
    Leads before after (note seen : Program State Note Exit Unit) :=
  weaker

theorem ask (weaker : ∀ state, before state → after state) (read : State → α) :
    Leads before after (ask read : Program State Note Exit α) :=
  weaker

theorem change {update : State → State} (leads : ∀ state, before state → after (update state)) :
    Leads before after (change update : Program State Note Exit Unit) :=
  leads

/-- Also where the first part leaves early the second property holds. -/
theorem bind {middle : State → Prop} {first : Program State Note Exit α}
    {next : α → Program State Note Exit β} (weaker : ∀ state, middle state → after state)
    (head : Leads before middle first) (tail : ∀ value, Leads middle after (next value)) :
    Leads before after (first >>= next) := by
  intro state start
  have reached := head state start
  rw [bind_apply]
  generalize first state = done at reached ⊢
  obtain ⟨log, last, exit | value⟩ := done
  · exact weaker last reached
  · exact tail value last reached

theorem ite {condition : Prop} [Decidable condition] {yes no : Program State Note Exit α}
    (positive : condition → Leads before after yes)
    (negative : ¬ condition → Leads before after no) :
    Leads before after (if condition then yes else no) := by
  split
  · exact positive ‹_›
  · exact negative ‹_›

end Leads

/-! ## What a program gives -/

def Gives (program : Program State Note Exit α) (state : State) (value : α) (after : State) :
    Prop :=
  ∃ log, program state = ⟨log, after, .ok value⟩

namespace Gives
variable {state middle after : State}

theorem pure (value : α) :
    Gives (Pure.pure value : Program State Note Exit α) state value state := ⟨[], rfl⟩

theorem ask (read : State → α) :
    Gives (ask read : Program State Note Exit α) state (read state) state := ⟨[], rfl⟩

theorem change (update : State → State) :
    Gives (change update : Program State Note Exit Unit) state () (update state) := ⟨[], rfl⟩

theorem bind {first : Program State Note Exit α} {next : α → Program State Note Exit β}
    {value : α} {result : β} (head : Gives first state value middle)
    (tail : Gives (next value) middle result after) :
    Gives (first >>= next) state result after := by
  obtain ⟨log, here⟩ := head
  obtain ⟨rest, later⟩ := tail
  exact ⟨log ++ rest, by rw [bind_apply, here, andThen_ok, later]⟩

end Gives

/-- From every state the program notes only what is good and gives a value that is
wanted. -/
def Returns (good : Note → Prop) (wanted : α → Prop) (program : Program State Note Exit α) :
    Prop :=
  ∀ state, (∀ seen ∈ (program state).log, good seen) ∧
    ∃ value, (program state).value = .ok value ∧ wanted value

namespace Returns
variable {good : Note → Prop}

theorem pure {wanted : α → Prop} {value : α} (holds : wanted value) :
    Returns good wanted (Pure.pure value : Program State Note Exit α) :=
  fun _ => ⟨by simp, value, rfl, holds⟩

theorem ask (read : State → α) :
    Returns good (fun _ => True) (ask read : Program State Note Exit α) :=
  fun state => ⟨by simp, read state, rfl, trivial⟩

theorem change (update : State → State) :
    Returns good (fun _ => True) (change update : Program State Note Exit Unit) :=
  fun _ => ⟨by simp, (), rfl, trivial⟩

theorem bind {first : Program State Note Exit α} {next : α → Program State Note Exit β}
    {middle : α → Prop} {wanted : β → Prop} (head : Returns good middle first)
    (tail : ∀ value, middle value → Returns good wanted (next value)) :
    Returns good wanted (first >>= next) := by
  intro state
  obtain ⟨logged, value, given, holds⟩ := head state
  have later := tail value holds (first state).state
  rw [bind_apply]
  generalize first state = done at logged given later ⊢
  obtain ⟨log, after, exit | _⟩ := done
  · cases given
  · obtain rfl := Except.ok.inj given
    obtain ⟨loggedNext, result, givenNext, holdsNext⟩ := later
    refine ⟨?_, result, givenNext, holdsNext⟩
    intro seen mem
    obtain mem | mem := List.mem_append.mp mem
    · exact logged seen mem
    · exact loggedNext seen mem

theorem ite {condition : Prop} [Decidable condition] {yes no : Program State Note Exit α}
    {wanted : α → Prop} (positive : condition → Returns good wanted yes)
    (negative : ¬ condition → Returns good wanted no) :
    Returns good wanted (if condition then yes else no) := by
  split
  · exact positive ‹_›
  · exact negative ‹_›

end Returns

/-! ## What a program notes -/

/-- While `inv` holds the program notes exactly these things, gives the value and keeps
`inv`. -/
def Yields (inv : State → Prop) (program : Program State Note Exit α) (value : α)
    (seen : List Note) : Prop :=
  ∀ state, inv state → ∃ next, program state = ⟨seen, next, .ok value⟩ ∧ inv next

namespace Yields
variable {inv : State → Prop} {seen more : List Note}

theorem pure (value : α) :
    Yields inv (Pure.pure value : Program State Note Exit α) value [] :=
  fun state holds => ⟨state, rfl, holds⟩

theorem note (one : Note) :
    Yields inv (note fun _ => one : Program State Note Exit Unit) () [one] :=
  fun state holds => ⟨state, rfl, holds⟩

theorem bind {first : Program State Note Exit α} {next : α → Program State Note Exit β}
    {value : α} {result : β} (head : Yields inv first value seen)
    (tail : Yields inv (next value) result more) :
    Yields inv (first >>= next) result (seen ++ more) := by
  intro state holds
  obtain ⟨middle, run, kept⟩ := head state holds
  obtain ⟨last, rest, kept⟩ := tail middle kept
  exact ⟨last, by rw [bind_apply, run, andThen_ok, rest], kept⟩

theorem ite {condition : Prop} [Decidable condition] {program : Program State Note Exit Unit}
    (yields : condition → Yields inv program () seen) :
    Yields inv (if condition then program else Pure.pure ()) ()
      (if condition then seen else []) := by
  split
  · exact yields ‹_›
  · exact pure ()

theorem forM {Entry : Type} {entries : List Entry} {body : Entry → Program State Note Exit Unit}
    {lines : Entry → List Note}
    (yields : ∀ entry ∈ entries, Yields inv (body entry) () (lines entry)) :
    Yields inv (entries.forM body) () (entries.flatMap lines) := by
  induction entries with
  | nil => exact pure ()
  | cons entry rest ih =>
      rw [List.flatMap_cons]
      apply bind (yields entry List.mem_cons_self)
      exact ih fun other member => yields other (List.mem_cons_of_mem _ member)

/-- A loop that notes one thing for each entry it chooses. -/
theorem choose {Entry : Type} (entries : List Entry) (chosen : Entry → Prop)
    [DecidablePred chosen] (line : Entry → Note) :
    Yields inv
      (entries.forM fun entry =>
        (if chosen entry then Traced.note fun _ => line entry else Pure.pure () :
          Program State Note Exit Unit))
      () ((entries.filter fun entry => chosen entry).map line) := by
  have lines : (entries.filter fun entry => chosen entry).map line =
      entries.flatMap fun entry => if chosen entry then [line entry] else [] := by
    induction entries with
    | nil => rfl
    | cons entry rest ih =>
        rw [List.flatMap_cons, List.filter_cons, ← ih]
        by_cases here : chosen entry
        · simp [here]
        · simp [here]
  rw [lines]
  exact forM fun entry _ => ite fun _ => note (line entry)

end Yields

end ImxTest.Lib.Traced
