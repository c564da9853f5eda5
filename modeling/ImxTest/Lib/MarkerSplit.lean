import Mathlib.Data.List.Basic
import Mathlib.Tactic.Common

/-!
# Splitting a sequence before each two-symbol marker

`markerSplit` cuts a sequence before every occurrence of a marker of two
different symbols.  Its first component is what precedes the first marker; each
further piece begins with a marker and holds no other.
-/

set_option autoImplicit false

namespace ImxTest.Lib.MarkerSplit

universe u

section Split
variable {Symbol : Type u} [DecidableEq Symbol] (first second : Symbol)

def markerSplit : List Symbol → List Symbol × List (List Symbol)
  | [] => ([], [])
  | symbol :: rest =>
      if symbol = first ∧ rest.head? = some second then
        ([], (symbol :: (markerSplit rest).1) :: (markerSplit rest).2)
      else (symbol :: (markerSplit rest).1, (markerSplit rest).2)

def fromMarker : List Symbol → List Symbol
  | [] => []
  | symbol :: rest =>
      if symbol = first ∧ rest.head? = some second then symbol :: rest else fromMarker rest

/-- A piece begins with a marker and has none at a later place. -/
structure MarkerPiece (piece : List Symbol) : Prop where
  starts : [first, second] <+: piece
  once : ∀ before after, piece = before ++ first :: second :: after → before = []

end Split

section Rules
variable {Symbol : Type u} [DecidableEq Symbol] {first second : Symbol}

theorem markerSplit_append (symbols : List Symbol) :
    (markerSplit first second symbols).1 ++ (markerSplit first second symbols).2.flatten =
      symbols := by
  induction symbols with
  | nil => rfl
  | cons symbol rest ih =>
      rw [markerSplit]
      split <;> simp [ih]

theorem markerSplit_fromMarker (symbols : List Symbol) :
    (markerSplit first second symbols).2.flatten = fromMarker first second symbols := by
  induction symbols with
  | nil => rfl
  | cons symbol rest ih =>
      rw [markerSplit, fromMarker]
      split
      · simp [markerSplit_append]
      · exact ih

/-- No marker lies inside what precedes the first one. -/
theorem markerSplit_front (symbols before after : List Symbol) :
    (markerSplit first second symbols).1 ≠ before ++ first :: second :: after := by
  induction symbols generalizing before with
  | nil => simp [markerSplit]
  | cons symbol rest ih =>
      rw [markerSplit]
      split
      · simp
      · rename_i other
        intro same
        cases before with
        | nil =>
            obtain ⟨rfl, front⟩ := List.cons.inj same
            have splits : (markerSplit symbol second rest).1 ++
                (markerSplit symbol second rest).2.flatten = rest := markerSplit_append rest
            rw [front, List.cons_append] at splits
            exact other ⟨rfl, by rw [← splits]; rfl⟩
        | cons head before =>
            obtain ⟨_, front⟩ := List.cons.inj same
            exact ih before front

theorem markerSplit_pieces (differ : first ≠ second) (symbols piece : List Symbol)
    (member : piece ∈ (markerSplit first second symbols).2) :
    MarkerPiece first second piece := by
  induction symbols with
  | nil => simp [markerSplit] at member
  | cons symbol rest ih =>
      rw [markerSplit] at member
      split at member
      · rename_i marker
        obtain ⟨rfl, next⟩ := marker
        rcases List.mem_cons.mp member with rfl | later
        · constructor
          · obtain ⟨tail, rfl⟩ : ∃ tail, rest = second :: tail := by
              cases rest with
              | nil => simp at next
              | cons head tail => exact ⟨tail, by simpa using next⟩
            rw [markerSplit, if_neg (fun marker => differ marker.1.symm)]
            simp
          · intro before after same
            cases before with
            | nil => rfl
            | cons head before =>
                obtain ⟨_, front⟩ := List.cons.inj same
                exact absurd front (markerSplit_front rest before after)
        · exact ih later
      · exact ih member

end Rules

end ImxTest.Lib.MarkerSplit
