import Mathlib.Data.List.Basic
import Mathlib.Tactic.Common

/-!
# Watching a trace

`NoneUntil opens closes bad` says of a trace that after an entry that opens a
gap no bad entry comes before one that closes it.  `watch` is the same property
read from left to right with one bit of memory, which is the form that
inductions over a run need.
-/

set_option autoImplicit false

namespace ImxTest.Lib.Watch

universe u

variable {Entry : Type u}

def NoneUntil (opens closes bad : Entry → Prop) (trace : List Entry) : Prop :=
  ∀ before opening between one after, trace = before ++ opening :: (between ++ one :: after) →
    opens opening → bad one → ∃ closing ∈ between, closes closing

section Watch
variable (opens closes bad : Entry → Prop) [DecidablePred opens] [DecidablePred closes]

/-- `armed`: an entry has opened a gap that none has closed since. -/
def watch : Bool → List Entry → Prop
  | _, [] => True
  | armed, entry :: rest =>
      (armed = true → ¬ bad entry) ∧
        watch (if opens entry then true else if closes entry then false else armed) rest

/-- Whether a gap is open after the trace. -/
def armedAfter (armed : Bool) (trace : List Entry) : Bool :=
  trace.foldl
    (fun armed entry => if opens entry then true else if closes entry then false else armed)
    armed

end Watch

section Rules
variable {opens closes bad : Entry → Prop}

theorem noneUntil_nil : NoneUntil opens closes bad [] := by
  intro before opening between one after split
  simp at split

/-- No bad entry comes before the first one that closes the gap. -/
def CleanUntil (closes bad : Entry → Prop) (trace : List Entry) : Prop :=
  ∀ between one after, trace = between ++ one :: after → bad one →
    ∃ closing ∈ between, closes closing

theorem noneUntil_cons (entry : Entry) (rest : List Entry) :
    NoneUntil opens closes bad (entry :: rest) ↔
      (opens entry → CleanUntil closes bad rest) ∧ NoneUntil opens closes bad rest := by
  constructor
  · intro holds
    refine ⟨?_, ?_⟩
    · intro opening between one after split isBad
      exact holds [] entry between one after (by simp [split]) opening isBad
    · intro before opening between one after split
      exact holds (entry :: before) opening between one after (by simp [split])
  · rintro ⟨head, tail⟩ before opening between one after split isOpen isBad
    cases before with
    | nil =>
        obtain ⟨rfl, rest⟩ := List.cons.inj split
        exact head isOpen between one after rest isBad
    | cons first before =>
        obtain ⟨_, rest⟩ := List.cons.inj split
        exact tail before opening between one after rest isOpen isBad

theorem cleanUntil_cons (entry : Entry) (rest : List Entry) :
    CleanUntil closes bad (entry :: rest) ↔
      ¬ bad entry ∧ (closes entry ∨ CleanUntil closes bad rest) := by
  constructor
  · intro holds
    refine ⟨?_, ?_⟩
    · intro isBad
      obtain ⟨closing, member, _⟩ := holds [] entry rest rfl isBad
      simp at member
    · by_cases closed : closes entry
      · exact .inl closed
      · refine .inr ?_
        intro between one after split isBad
        obtain ⟨closing, member, isClosing⟩ :=
          holds (entry :: between) one after (by simp [split]) isBad
        rcases List.mem_cons.mp member with rfl | member
        · exact absurd isClosing closed
        · exact ⟨closing, member, isClosing⟩
  · rintro ⟨good, later⟩ between one after split isBad
    cases between with
    | nil =>
        obtain ⟨rfl, _⟩ := List.cons.inj split
        exact absurd isBad good
    | cons first between =>
        obtain ⟨rfl, rest⟩ := List.cons.inj split
        rcases later with closed | clean
        · exact ⟨entry, by simp, closed⟩
        · obtain ⟨closing, member, isClosing⟩ := clean between one after rest isBad
          exact ⟨closing, by simp [member], isClosing⟩

theorem watch_iff [DecidablePred opens] [DecidablePred closes] (trace : List Entry)
    (armed : Bool) :
    watch opens closes bad armed trace ↔
      NoneUntil opens closes bad trace ∧ (armed = true → CleanUntil closes bad trace) := by
  induction trace generalizing armed with
  | nil => simp [watch, noneUntil_nil, CleanUntil]
  | cons entry rest ih =>
      rw [watch, ih, noneUntil_cons, cleanUntil_cons]
      by_cases opening : opens entry
      · rw [if_pos opening]
        tauto
      · by_cases closing : closes entry
        · rw [if_neg opening, if_pos closing]
          simp only [Bool.false_eq_true, false_implies, and_true]
          tauto
        · rw [if_neg opening, if_neg closing]
          tauto

theorem armedAfter_snoc [DecidablePred opens] [DecidablePred closes] (armed : Bool)
    (trace : List Entry) (entry : Entry) :
    armedAfter opens closes armed (trace ++ [entry]) =
      if opens entry then true else if closes entry then false
      else armedAfter opens closes armed trace := by
  rw [armedAfter, List.foldl_append]
  rfl

theorem watch_snoc [DecidablePred opens] [DecidablePred closes] (armed : Bool)
    (trace : List Entry) (entry : Entry) :
    watch opens closes bad armed (trace ++ [entry]) ↔
      watch opens closes bad armed trace ∧
        (armedAfter opens closes armed trace = true → ¬ bad entry) := by
  induction trace generalizing armed with
  | nil => simp [watch, armedAfter]
  | cons first rest ih =>
      rw [List.cons_append, watch, watch, ih, and_assoc]
      rfl

theorem noneUntil_iff_watch [DecidablePred opens] [DecidablePred closes]
    (trace : List Entry) :
    NoneUntil opens closes bad trace ↔ watch opens closes bad false trace := by
  simp [watch_iff]

theorem noneUntil_snoc [DecidablePred opens] [DecidablePred closes] (trace : List Entry)
    (entry : Entry) :
    NoneUntil opens closes bad (trace ++ [entry]) ↔
      NoneUntil opens closes bad trace ∧
        (armedAfter opens closes false trace = true → ¬ bad entry) := by
  rw [noneUntil_iff_watch, noneUntil_iff_watch, watch_snoc]

end Rules

/-! ## What holds at every entry -/

def Everywhere (right : List Entry → Entry → Prop) (trace : List Entry) : Prop :=
  ∀ before one after, trace = before ++ one :: after → right before one

section Everywhere
variable {right : List Entry → Entry → Prop} {trace : List Entry}

theorem everywhere_nil : Everywhere right [] := by
  intro before one after split
  simp at split

theorem Everywhere.of_append {more : List Entry} (holds : Everywhere right (trace ++ more)) :
    Everywhere right trace := by
  rintro before one after rfl
  exact holds before one (after ++ more) (by simp)

theorem everywhere_snoc {entry : Entry} :
    Everywhere right (trace ++ [entry]) ↔ Everywhere right trace ∧ right trace entry := by
  constructor
  · intro holds
    exact ⟨holds.of_append, holds trace entry [] rfl⟩
  · rintro ⟨holds, last⟩ before one after split
    rcases List.eq_nil_or_concat after with rfl | ⟨rest, end_, rfl⟩
    · obtain ⟨rfl, same⟩ := List.append_inj' split rfl
      obtain ⟨rfl⟩ := List.singleton_inj.mp same
      exact last
    · rw [List.concat_eq_append, ← List.cons_append, ← List.append_assoc] at split
      obtain ⟨rfl, _⟩ := List.append_inj' split rfl
      exact holds before one rest rfl

end Everywhere

end ImxTest.Lib.Watch
