import ImxTest.Lib.Traced
import Mathlib.Logic.Function.Basic

/-!
# Programs that take and give back resources

A program logs what it takes, uses and gives back, and its state says which of its pointers
are set.  A ledger that goes through the log finds a resource that is taken twice, given back
twice or used when it is not held, and what is held in the end.  The rules go forward through a program:
each says how a part changes what the pointers can be.
-/

set_option autoImplicit false

namespace ImxTest.Lib.Ledger

open ImxTest.Lib.Traced

inductive Move (Resource : Type) where
  | took (resource : Resource)
  | used (resource : Resource)
  | gave (resource : Resource)
  deriving DecidableEq, Repr

/-- The pointers that are set, and the variables beside them. -/
structure Store (Resource Vars : Type) where
  ptr : Resource → Bool
  vars : Vars

variable {Resource Vars Exit : Type}

abbrev Assertion (Resource Vars : Type) : Type := Store Resource Vars → (Resource → Bool) → Prop

def Within (may : Resource → Prop) (ptr : Resource → Bool) : Prop := ∀ r, ptr r = true → may r

/-- What is held is what the pointers say, the variables are these, and the pointers are as
they should be. -/
structure Tidy (vars : Vars) (good : (Resource → Bool) → Prop) (store : Store Resource Vars)
    (held : Resource → Bool) : Prop where
  vars : store.vars = vars
  held : held = store.ptr
  good : good store.ptr

/-- The pointers may dangle, but those of these resources do not, and these are still set. -/
structure Winding (must may : Resource → Prop) (store : Store Resource Vars)
    (held : Resource → Bool) : Prop where
  set : ∀ r, must r → store.ptr r = true
  held : ∀ r, held r = true ↔ store.ptr r = true ∧ may r

def nothing : Resource → Bool := fun _ => false

/-- These pointers are set, and only those. -/
structure Between (must may : Resource → Prop) (ptr : Resource → Bool) : Prop where
  lower : ∀ r, must r → ptr r = true
  upper : Within may ptr

theorem Within.mono {may more : Resource → Prop} {ptr : Resource → Bool} (within : Within may ptr)
    (implies : ∀ r, may r → more r) : Within more ptr :=
  fun r set => implies r (within r set)

theorem Within.unset {may : Resource → Prop} {ptr : Resource → Bool} (within : Within may ptr)
    {resource : Resource} (outside : ¬ may resource) : ptr resource = false := by
  cases set : ptr resource with
  | false => rfl
  | true => exact absurd (within resource set) outside

theorem Between.mono {must may fewer more : Resource → Prop} {ptr : Resource → Bool}
    (between : Between must may ptr) (lower : ∀ r, fewer r → must r)
    (upper : ∀ r, may r → more r) : Between fewer more ptr :=
  ⟨fun r wanted => between.lower r (lower r wanted), between.upper.mono upper⟩

section Held
variable {vars : Vars} {may : Resource → Prop} {store : Store Resource Vars}
  {held : Resource → Bool}

theorem Tidy.mono {good after : (Resource → Bool) → Prop} (tidy : Tidy vars good store held)
    (implies : ∀ ptr, good ptr → after ptr) : Tidy vars after store held :=
  ⟨tidy.vars, tidy.held, implies _ tidy.good⟩

theorem Tidy.winding {must : Resource → Prop} (tidy : Tidy vars (Between must may) store held) :
    Winding must may store held := by
  refine ⟨tidy.good.lower, fun r => ?_⟩
  rw [tidy.held]
  exact ⟨fun set => ⟨set, tidy.good.upper r set⟩, And.left⟩

theorem Winding.nothing {must : Resource → Prop} (winding : Winding must may store held)
    (empty : ∀ r, ¬ may r) : held = nothing := by
  funext r
  cases holds : held r with
  | false => rfl
  | true => exact absurd ((winding.held r).mp holds).2 (empty r)

end Held

theorem Tidy.widen {vars : Vars} {must may fewer more : Resource → Prop}
    {store : Store Resource Vars} {held : Resource → Bool}
    (tidy : Tidy vars (Between must may) store held) (lower : ∀ r, fewer r → must r)
    (upper : ∀ r, may r → more r) : Tidy vars (Between fewer more) store held :=
  tidy.mono fun _ between => between.mono lower upper

/-! ## The ledger -/

variable [DecidableEq Resource]

/-- What is held behind a log.  There is no answer where a resource is taken that is held, or
used or given back that is not: a pointer that is set does not say that its target is there. -/
def settle : (Resource → Bool) → List (Move Resource) → Option (Resource → Bool)
  | held, [] => some held
  | held, .took resource :: rest =>
      if held resource then none else settle (Function.update held resource true) rest
  | held, .used resource :: rest => if held resource then settle held rest else none
  | held, .gave resource :: rest =>
      if held resource then settle (Function.update held resource false) rest else none

-- A use behind the free.
example : settle nothing [.took (), .gave (), .used ()] = none := by decide

/-- All that is taken is given back, once, and not used outside. -/
def Balanced (log : List (Move Resource)) : Prop := settle nothing log = some nothing

theorem settle_append (held : Resource → Bool) (first second : List (Move Resource)) :
    settle held (first ++ second) = (settle held first).bind fun kept => settle kept second := by
  induction first generalizing held with
  | nil => rfl
  | cons move rest ih =>
      cases move with
      | took resource =>
          simp only [List.cons_append, settle]
          split
          · rfl
          · exact ih _
      | used resource =>
          simp only [List.cons_append, settle]
          split
          · exact ih _
          · rfl
      | gave resource =>
          simp only [List.cons_append, settle]
          split
          · exact ih _
          · rfl

/-! ## The moves -/

abbrev Allocator (Resource Vars Exit : Type) : Type → Type :=
  Program (Store Resource Vars) (Move Resource) Exit

/-- The resource is given and its pointer set, or there is none. -/
def acquire (given : Bool) (resource : Resource) : Allocator Resource Vars Exit Bool :=
  if given then do
    note fun _ => .took resource
    change fun store => { store with ptr := Function.update store.ptr resource true }
    pure true
  else pure false

def take (given : Bool) (resource : Resource) (exit : Exit) :
    Allocator Resource Vars Exit Unit := do
  let taken ← acquire given resource
  if taken then pure () else quit exit

def deref (resource : Resource) (fault : Exit) : Allocator Resource Vars Exit Unit := do
  let set ← ask fun store => store.ptr resource
  if set then note fun _ => .used resource else quit fault

/-- `free(p)`, which does nothing for a null pointer and does not set `p`. -/
def giveBack (resource : Resource) : Allocator Resource Vars Exit Unit := do
  let set ← ask fun store => store.ptr resource
  if set then note fun _ => .gave resource else pure ()

/-- `p = NULL`. -/
def forget (resource : Resource) : Allocator Resource Vars Exit Unit :=
  change fun store => { store with ptr := Function.update store.ptr resource false }

def release (resource : Resource) : Allocator Resource Vars Exit Unit := do
  giveBack resource
  forget resource

def assign (update : Vars → Vars) : Allocator Resource Vars Exit Unit :=
  change fun store => { store with vars := update store.vars }

/-- A body whose jumps all lead to one clean-up. -/
def handle {State Note Label : Type} {α β : Type} (body : Program State Note Label α)
    (cleanUp : Except Label α → Program State Note Exit β) : Program State Note Exit β :=
  fun state =>
    let done := body state
    let rest := cleanUp done.value done.state
    ⟨done.log ++ rest.log, rest.state, rest.value⟩

/-! ## What a program does to the ledger -/

/-- From a store and a ledger with the first property the log goes through the ledger, and
store and ledger then have the second property, or the one of the exit. -/
def Spec {α : Type} (before : Assertion Resource Vars) (program : Allocator Resource Vars Exit α)
    (after : α → Assertion Resource Vars) (left : Exit → Assertion Resource Vars) : Prop :=
  ∀ store held, before store held → ∃ kept, settle held (program store).log = some kept ∧
    match (program store).value with
    | .ok value => after value (program store).state kept
    | .error exit => left exit (program store).state kept

namespace Spec
variable {α β : Type} {before : Assertion Resource Vars} {left : Exit → Assertion Resource Vars}

theorem pure {value : α} {after : α → Assertion Resource Vars}
    (holds : ∀ store held, before store held → after value store held) :
    Spec before (Pure.pure value : Allocator Resource Vars Exit α) after left :=
  fun store held start => ⟨held, rfl, holds store held start⟩

theorem quit {exit : Exit} {after : α → Assertion Resource Vars}
    (holds : ∀ store held, before store held → left exit store held) :
    Spec before (quit exit : Allocator Resource Vars Exit α) after left :=
  fun store held start => ⟨held, rfl, holds store held start⟩

theorem ask (read : Store Resource Vars → α) :
    Spec before (ask read : Allocator Resource Vars Exit α)
      (fun value store held => value = read store ∧ before store held) left :=
  fun _ held start => ⟨held, rfl, rfl, start⟩

theorem change {update : Store Resource Vars → Store Resource Vars}
    {after : Unit → Assertion Resource Vars}
    (holds : ∀ store held, before store held → after () (update store) held) :
    Spec before (change update : Allocator Resource Vars Exit Unit) after left :=
  fun store held start => ⟨held, rfl, holds store held start⟩

theorem bind {first : Allocator Resource Vars Exit α}
    {next : α → Allocator Resource Vars Exit β} {middle : α → Assertion Resource Vars}
    {after : β → Assertion Resource Vars} (head : Spec before first middle left)
    (tail : ∀ value, Spec (middle value) (next value) after left) :
    Spec before (first >>= next) after left := by
  intro store held start
  obtain ⟨kept, settled, reached⟩ := head store held start
  rw [bind_apply]
  generalize first store = done at settled reached
  obtain ⟨log, last, exit | value⟩ := done
  · exact ⟨kept, settled, reached⟩
  · obtain ⟨final, settledNext, reachedNext⟩ := tail value last kept reached
    refine ⟨final, ?_, reachedNext⟩
    rw [andThen_ok, settle_append, settled]
    exact settledNext

theorem weaken {program : Allocator Resource Vars Exit α} {first : Assertion Resource Vars}
    {after last : α → Assertion Resource Vars} {exits : Exit → Assertion Resource Vars}
    (done : Spec before program after left)
    (start : ∀ store held, first store held → before store held)
    (reached : ∀ value store held, after value store held → last value store held)
    (leaves : ∀ exit store held, left exit store held → exits exit store held) :
    Spec first program last exits := by
  intro store held holds
  obtain ⟨kept, settled, ends⟩ := done store held (start store held holds)
  refine ⟨kept, settled, ?_⟩
  revert ends
  cases (program store).value with
  | error exit => exact leaves exit _ _
  | ok value => exact reached value _ _

theorem strengthen {program : Allocator Resource Vars Exit α} {first : Assertion Resource Vars}
    {after : α → Assertion Resource Vars} (done : Spec before program after left)
    (start : ∀ store held, first store held → before store held) :
    Spec first program after left :=
  done.weaken start (fun _ _ _ holds => holds) fun _ _ _ holds => holds

theorem relax {program : Allocator Resource Vars Exit α}
    {after last : α → Assertion Resource Vars} (done : Spec before program after left)
    (reached : ∀ value store held, after value store held → last value store held) :
    Spec before program last left :=
  done.weaken (fun _ _ holds => holds) reached fun _ _ _ holds => holds

theorem ite {condition : Prop} [Decidable condition] {yes no : Allocator Resource Vars Exit α}
    {after : α → Assertion Resource Vars} (positive : condition → Spec before yes after left)
    (negative : ¬ condition → Spec before no after left) :
    Spec before (if condition then yes else no) after left := by
  split
  · exact positive ‹_›
  · exact negative ‹_›

theorem any {ι : Sort*} {before : ι → Assertion Resource Vars}
    {program : Allocator Resource Vars Exit α} {after : α → Assertion Resource Vars}
    (done : ∀ i, Spec (before i) program after left) :
    Spec (fun store held => ∃ i, before i store held) program after left :=
  fun store held ⟨i, start⟩ => done i store held start

/-- A loop that counts up, by what holds before each turn. -/
theorem forM_range' {body : Nat → Allocator Resource Vars Exit Unit}
    {inv : Nat → Assertion Resource Vars} (turns start : Nat)
    (turn : ∀ i, start ≤ i → i < start + turns →
      Spec (inv i) (body i) (fun _ => inv (i + 1)) left) :
    Spec (inv start) ((List.range' start turns).forM body) (fun _ => inv (start + turns)) left := by
  induction turns generalizing start with
  | zero => exact Spec.pure fun _ _ holds => holds
  | succ turns ih =>
      have rest := ih (start + 1) fun i above below => turn i (by omega) (by omega)
      rw [show start + 1 + turns = start + (turns + 1) by omega] at rest
      exact (turn start (Nat.le_refl start) (by omega)).bind fun _ => rest

theorem forM {body : Nat → Allocator Resource Vars Exit Unit}
    {inv : Nat → Assertion Resource Vars} {turns : Nat}
    (turn : ∀ i, i < turns → Spec (inv i) (body i) (fun _ => inv (i + 1)) left) :
    Spec (inv 0) ((List.range turns).forM body) (fun _ => inv turns) left := by
  have counted := forM_range' turns 0 fun i _ below => turn i (by omega)
  rwa [← List.range_eq_range', Nat.zero_add] at counted

/-- The clean-up goes on from where the body has ended or left. -/
theorem handle {Label : Type} {body : Allocator Resource Vars Label α}
    {cleanUp : Except Label α → Allocator Resource Vars Exit β}
    {middle : α → Assertion Resource Vars} {jumps : Label → Assertion Resource Vars}
    {after : β → Assertion Resource Vars} (done : Spec before body middle jumps)
    (returned : ∀ value, Spec (middle value) (cleanUp (.ok value)) after left)
    (jumped : ∀ label, Spec (jumps label) (cleanUp (.error label)) after left) :
    Spec before (handle body cleanUp) after left := by
  intro store held start
  obtain ⟨kept, settled, reached⟩ := done store held start
  simp only [Ledger.handle, settle_append, settled]
  generalize body store = outcome at reached ⊢
  obtain ⟨log, last, label | value⟩ := outcome
  · exact jumped label last kept reached
  · exact returned value last kept reached

end Spec

/-! ## Pointers and the ledger in step -/

section Tidy
variable {α : Type} {vars : Vars} {good after : (Resource → Bool) → Prop} {resource : Resource}
  {left : Exit → Assertion Resource Vars}

theorem acquire_tidy {given : Bool} (unset : ∀ ptr, good ptr → ptr resource = false)
    (taken : ∀ ptr, good ptr → after (Function.update ptr resource true)) :
    Spec (Tidy vars good) (acquire given resource)
      (fun taken store held => taken = given ∧
        Tidy vars (if taken then after else good) store held) left := by
  cases given with
  | false => exact Spec.pure fun _ _ start => ⟨rfl, start⟩
  | true =>
      intro store held start
      refine ⟨Function.update held resource true, ?_, rfl, start.vars, ?_, taken _ start.good⟩
      · have free : held resource = false := by
          rw [start.held]
          exact unset _ start.good
        simp [acquire, settle, free]
      · simp [acquire, start.held]

theorem deref_tidy {fault : Exit} (set : ∀ ptr, good ptr → ptr resource = true) :
    Spec (Tidy vars good) (deref resource fault) (fun _ => Tidy vars good) left := by
  intro store held start
  have set : store.ptr resource = true := set _ start.good
  have holds : held resource = true := start.held ▸ set
  exact ⟨held, by simp [deref, set, settle, holds], by simpa [deref, set] using start⟩

theorem release_tidy (released : ∀ ptr, good ptr → after (Function.update ptr resource false)) :
    Spec (Tidy vars good) (release resource) (fun _ => Tidy vars after) left := by
  intro store held start
  refine ⟨Function.update held resource false, ?_, ?_⟩
  · cases set : store.ptr resource with
    | false =>
        have same : Function.update store.ptr resource false = store.ptr := by
          rw [← set]
          exact Function.update_eq_self resource store.ptr
        simp [release, giveBack, forget, settle, set, start.held, same]
    | true => simp [release, giveBack, forget, settle, set, start.held]
  · cases set : store.ptr resource with
    | false =>
        simp only [release, giveBack, forget, bind_apply, ask_apply, andThen_ok, set]
        exact ⟨start.vars, by simp [start.held], released _ start.good⟩
    | true =>
        simp only [release, giveBack, forget, bind_apply, ask_apply, andThen_ok, set]
        exact ⟨start.vars, by simp [start.held], released _ start.good⟩

section Between
variable {must may fewer more : Resource → Prop}

theorem Between.acquired {ptr : Resource → Bool} (between : Between must may ptr)
    (lower : ∀ r, fewer r → must r ∨ r = resource)
    (upper : ∀ r, may r ∨ r = resource → more r) :
    Between fewer more (Function.update ptr resource true) := by
  constructor
  · intro r wanted
    by_cases same : r = resource
    · rw [same, Function.update_self]
    · rw [Function.update_of_ne same]
      exact between.lower r ((lower r wanted).resolve_right same)
  · intro r set
    by_cases same : r = resource
    · exact upper r (Or.inr same)
    · rw [Function.update_of_ne same] at set
      exact upper r (Or.inl (between.upper r set))

theorem Between.released {ptr : Resource → Bool} (between : Between must may ptr)
    (lower : ∀ r, fewer r → must r ∧ r ≠ resource)
    (upper : ∀ r, may r → r ≠ resource → more r) :
    Between fewer more (Function.update ptr resource false) := by
  constructor
  · intro r wanted
    obtain ⟨kept, other⟩ := lower r wanted
    rw [Function.update_of_ne other]
    exact between.lower r kept
  · intro r set
    by_cases same : r = resource
    · rw [same, Function.update_self] at set
      cases set
    · rw [Function.update_of_ne same] at set
      exact upper r (between.upper r set) same

theorem Spec.acquire (fewer more : Resource → Prop) {β : Type} {given : Bool}
    {next : Bool → Allocator Resource Vars Exit β} {last : β → Assertion Resource Vars}
    (new : ¬ may resource)
    (lower : ∀ r, fewer r → must r ∨ r = resource)
    (upper : ∀ r, may r ∨ r = resource → more r)
    (taken : given = true → Spec (Tidy vars (Between fewer more)) (next true) last left)
    (refused : given = false → Spec (Tidy vars (Between must may)) (next false) last left) :
    Spec (Tidy vars (Between must may)) (Ledger.acquire given resource >>= next) last left := by
  have head := @acquire_tidy _ _ _ _ vars (Between must may) (Between fewer more) resource left
    given (fun _ between => between.upper.unset new) fun _ between => between.acquired lower upper
  refine head.bind fun given => ?_
  cases given with
  | false => exact fun store held start => refused start.1.symm store held start.2
  | true => exact fun store held start => taken start.1.symm store held start.2

theorem take_cases (fewer more : Resource → Prop) {given : Bool} {exit : Exit}
    (new : ¬ may resource)
    (lower : ∀ r, fewer r → must r ∨ r = resource)
    (upper : ∀ r, may r ∨ r = resource → more r)
    (leaves : given = false → ∀ store held,
      Tidy vars (Between must may) store held → left exit store held) :
    Spec (Tidy vars (Between must may)) (take given resource exit)
      (fun _ => Tidy vars (Between fewer more)) left :=
  Spec.acquire fewer more new lower upper (fun _ => Spec.pure fun _ _ start => start)
    fun refused => Spec.quit (leaves refused)

theorem take_between (fewer more : Resource → Prop) {given : Bool} {exit : Exit}
    (new : ¬ may resource)
    (lower : ∀ r, fewer r → must r ∨ r = resource)
    (upper : ∀ r, may r ∨ r = resource → more r)
    (leaves : ∀ store held, Tidy vars (Between must may) store held → left exit store held) :
    Spec (Tidy vars (Between must may)) (take given resource exit)
      (fun _ => Tidy vars (Between fewer more)) left :=
  take_cases fewer more new lower upper fun _ => leaves

theorem release_between (fewer more : Resource → Prop)
    (lower : ∀ r, fewer r → must r ∧ r ≠ resource)
    (upper : ∀ r, may r → r ≠ resource → more r) :
    Spec (Tidy vars (Between must may)) (release resource)
      (fun _ => Tidy vars (Between fewer more)) left :=
  release_tidy fun _ between => between.released lower upper

theorem deref_between {fault : Exit} (wanted : must resource) :
    Spec (Tidy vars (Between must may)) (deref resource fault)
      (fun _ => Tidy vars (Between must may)) left :=
  deref_tidy fun _ between => between.lower resource wanted

end Between

theorem assign_tidy {update : Vars → Vars} :
    Spec (Tidy vars good) (assign update : Allocator Resource Vars Exit Unit)
      (fun _ => Tidy (update vars) good) left :=
  Spec.change fun _ _ start => ⟨congrArg update start.vars, start.held, start.good⟩

theorem Spec.askVars {β : Type} (read : Vars → α) {next : α → Allocator Resource Vars Exit β}
    {last : β → Assertion Resource Vars}
    (rest : Spec (Tidy vars good) (next (read vars)) last left) :
    Spec (Tidy vars good) (Traced.ask (fun store => read store.vars) >>= next) last left := by
  refine (Spec.ask _).bind fun value => ?_
  intro store held ⟨same, start⟩
  rw [same, start.vars]
  exact rest store held start

/-- A test of a pointer that is set, and of one that is not. -/
theorem Spec.askSet {β : Type} {must may : Resource → Prop}
    {next : Bool → Allocator Resource Vars Exit β} {last : β → Assertion Resource Vars}
    (wanted : must resource) (rest : Spec (Tidy vars (Between must may)) (next true) last left) :
    Spec (Tidy vars (Between must may))
      (Traced.ask (fun store => store.ptr resource) >>= next) last left := by
  refine (Spec.ask _).bind fun value => ?_
  intro store held ⟨same, start⟩
  rw [same, start.good.lower resource wanted]
  exact rest store held start

theorem Spec.askUnset {β : Type} {must may : Resource → Prop}
    {next : Bool → Allocator Resource Vars Exit β} {last : β → Assertion Resource Vars}
    (outside : ¬ may resource)
    (rest : Spec (Tidy vars (Between must may)) (next false) last left) :
    Spec (Tidy vars (Between must may))
      (Traced.ask (fun store => store.ptr resource) >>= next) last left := by
  refine (Spec.ask _).bind fun value => ?_
  intro store held ⟨same, start⟩
  rw [same, start.good.upper.unset outside]
  exact rest store held start

end Tidy

/-! ## Arrays -/

/-- What belongs to the members of an array from one index up to another. -/
def Entries (member : Nat → Resource → Prop) (first last : Nat) (r : Resource) : Prop :=
  ∃ i, first ≤ i ∧ i < last ∧ member i r

section Entries
variable {member : Nat → Resource → Prop} {must may : Resource → Prop} {vars : Vars}
  {left : Exit → Assertion Resource Vars}

omit [DecidableEq Resource] in
theorem not_entries_self (n : Nat) (r : Resource) : ¬ Entries member n n r := by
  rintro ⟨i, above, below, -⟩
  omega

omit [DecidableEq Resource] in
theorem entries_first {i n : Nat} (below : i < n) (r : Resource) :
    Entries member i n r ↔ member i r ∨ Entries member (i + 1) n r := by
  constructor
  · rintro ⟨j, above, inside, owned⟩
    rcases Nat.eq_or_lt_of_le above with rfl | later
    · exact .inl owned
    · exact .inr ⟨j, later, inside, owned⟩
  · rintro (owned | ⟨j, above, inside, owned⟩)
    · exact ⟨i, Nat.le_refl i, below, owned⟩
    · exact ⟨j, by omega, inside, owned⟩

omit [DecidableEq Resource] in
theorem entries_last {i n : Nat} (reached : i ≤ n) (r : Resource) :
    Entries member i (n + 1) r ↔ Entries member i n r ∨ member n r := by
  constructor
  · rintro ⟨j, above, inside, owned⟩
    rcases Nat.lt_succ_iff_lt_or_eq.mp inside with earlier | rfl
    · exact .inl ⟨j, above, earlier, owned⟩
    · exact .inr owned
  · rintro (⟨j, above, inside, owned⟩ | owned)
    · exact ⟨j, above, by omega, owned⟩
    · exact ⟨n, reached, Nat.lt_succ_self n, owned⟩

theorem free_entries {body : Nat → Allocator Resource Vars Exit Unit} {n : Nat}
    (inside : ∀ r, must r → may r) (apart : ∀ i r, member i r → ¬ may r)
    (distinct : ∀ i j r, member i r → member j r → i = j)
    (freed : ∀ i, i < n → ∀ rest : Resource → Prop, (∀ r, must r → rest r) →
      (∀ r, rest r → may r ∨ Entries member (i + 1) n r) → (∀ r, member i r → ¬ rest r) →
      Spec (Tidy vars (Between must fun r => rest r ∨ member i r)) (body i)
        (fun _ => Tidy vars (Between must rest)) left) :
    Spec (Tidy vars (Between must fun r => may r ∨ Entries member 0 n r))
      ((List.range n).forM body) (fun _ => Tidy vars (Between must may)) left := by
  have loop : Spec (Tidy vars (Between must fun r => may r ∨ Entries member 0 n r))
      ((List.range n).forM body)
      (fun _ => Tidy vars (Between must fun r => may r ∨ Entries member n n r)) left := by
    refine @Spec.forM _ _ _ _ left body
      (fun i => Tidy vars (Between must fun r => may r ∨ Entries member i n r)) n ?_
    intro i below
    refine (freed i below (fun r => may r ∨ Entries member (i + 1) n r)
      (fun r wanted => .inl (inside r wanted)) (fun _ => id) ?_).strengthen ?_
    · rintro r owned (other | ⟨j, above, -, again⟩)
      · exact apart i r owned other
      · have := distinct i j r owned again
        omega
    · intro store held start
      refine start.mono fun _ good => good.mono (fun _ => id) fun r set => ?_
      rw [entries_first below] at set
      grind
  refine loop.relax fun _ _ _ reached => ?_
  refine reached.mono fun _ good => good.mono (fun _ => id) fun r set => ?_
  exact set.resolve_right (not_entries_self n r)

end Entries

/-! ## The last clean-up -/

section Winding
variable {must may more : Resource → Prop} {resource : Resource}
  {left : Exit → Assertion Resource Vars}

theorem giveBack_winding (owned : may resource) (others : ∀ r, more r ↔ may r ∧ r ≠ resource) :
    Spec (Winding must may) (giveBack resource : Allocator Resource Vars Exit Unit)
      (fun _ => Winding must more) left := by
  intro store held start
  cases set : store.ptr resource with
  | false =>
      refine ⟨held, by simp [giveBack, set, settle], ?_⟩
      simp only [giveBack, bind_apply, ask_apply, andThen_ok, set]
      refine ⟨start.set, fun r => ?_⟩
      rw [others, start.held]
      by_cases same : r = resource
      · simp [same, set]
      · simp [same]
  | true =>
      have holds : held resource = true := (start.held resource).mpr ⟨set, owned⟩
      refine ⟨Function.update held resource false, by simp [giveBack, set, settle, holds], ?_⟩
      simp only [giveBack, bind_apply, ask_apply, andThen_ok, set]
      refine ⟨start.set, fun r => ?_⟩
      rw [others]
      by_cases same : r = resource
      · simp [same]
      · simp [same, start.held r]

theorem deref_winding {fault : Exit} (wanted : must resource) (owned : may resource) :
    Spec (Winding must may) (deref resource fault : Allocator Resource Vars Exit Unit)
      (fun _ => Winding must may) left := by
  intro store held start
  have set : store.ptr resource = true := start.set resource wanted
  have holds : held resource = true := (start.held resource).mpr ⟨set, owned⟩
  exact ⟨held, by simp [deref, set, settle, holds], by simpa [deref, set] using start⟩

end Winding

/-- A program that runs to its end and leaves nothing behind. -/
theorem Spec.balanced {α : Type} {program : Allocator Resource Vars Exit α}
    {before : Assertion Resource Vars} {store : Store Resource Vars}
    (done : Spec before program (fun _ _ held => held = nothing) fun _ _ _ => False)
    (start : before store nothing) :
    Balanced (program store).log ∧ ∃ value, (program store).value = .ok value := by
  obtain ⟨kept, settled, reached⟩ := done store nothing start
  cases value : (program store).value with
  | error exit => simp [value] at reached
  | ok result =>
      simp only [value] at reached
      exact ⟨by rw [Balanced, settled, reached], result, rfl⟩

end ImxTest.Lib.Ledger
