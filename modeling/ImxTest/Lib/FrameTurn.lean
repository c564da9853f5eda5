import Mathlib.Data.Set.Image

/-!
# Turning and mirroring a frame

A frame is a width and a height, with the origin at its upper left corner.  A
quarter turn clockwise and a mirror move every square of the frame; `side` is
the side of the squares, so that with 1 they are the pixels and with 0 the
points of the frame.  A box goes along with the squares in it.
-/

set_option autoImplicit false

namespace ImxTest.Lib.FrameTurn

structure Frame where
  width : Int
  height : Int
  deriving DecidableEq, Repr

structure Box where
  left : Int
  top : Int
  right : Int
  bottom : Int
  deriving DecidableEq, Repr

def Box.squares (side : Int) (box : Box) : Set (Int × Int) :=
  {p | box.left ≤ p.1 ∧ p.1 + side ≤ box.right ∧ box.top ≤ p.2 ∧ p.2 + side ≤ box.bottom}

structure Box.Inside (box : Box) (frame : Frame) : Prop where
  left : 0 ≤ box.left
  width : box.left ≤ box.right
  right : box.right ≤ frame.width
  top : 0 ≤ box.top
  height : box.top ≤ box.bottom
  bottom : box.bottom ≤ frame.height

/-! ## Quarter turns -/

def Frame.quarter (frame : Frame) : Frame := ⟨frame.height, frame.width⟩

/-- The upper edge becomes the right one. -/
def quarterPoint (side : Int) (frame : Frame) (p : Int × Int) : Int × Int :=
  (frame.height - side - p.2, p.1)

def Box.quarter (frame : Frame) (box : Box) : Box :=
  ⟨frame.height - box.bottom, box.left, frame.height - box.top, box.right⟩

def Frame.turn : Nat → Frame → Frame
  | 0, frame => frame
  | quarters + 1, frame => Frame.turn quarters frame.quarter

def turnPoint (side : Int) : Nat → Frame → Int × Int → Int × Int
  | 0, _, p => p
  | quarters + 1, frame, p => turnPoint side quarters frame.quarter (quarterPoint side frame p)

def Box.turn : Nat → Frame → Box → Box
  | 0, _, box => box
  | quarters + 1, frame, box => Box.turn quarters frame.quarter (box.quarter frame)

/-! ## Mirrors -/

/-- Which sides are exchanged: left and right, top and bottom. -/
structure Flip where
  horizontal : Bool
  vertical : Bool
  deriving DecidableEq, Repr

def flipPoint (side : Int) (flip : Flip) (frame : Frame) (p : Int × Int) : Int × Int :=
  (if flip.horizontal then frame.width - side - p.1 else p.1,
    if flip.vertical then frame.height - side - p.2 else p.2)

def Box.flip (flip : Flip) (frame : Frame) (box : Box) : Box :=
  ⟨if flip.horizontal then frame.width - box.right else box.left,
    if flip.vertical then frame.height - box.bottom else box.top,
    if flip.horizontal then frame.width - box.left else box.right,
    if flip.vertical then frame.height - box.top else box.bottom⟩

/-! ## Boxes go along with their squares -/

theorem image_quarter (side : Int) (frame : Frame) (box : Box) :
    quarterPoint side frame '' box.squares side = (box.quarter frame).squares side := by
  ext ⟨x, y⟩
  constructor
  · rintro ⟨⟨u, v⟩, ⟨left, right, top, bottom⟩, moved⟩
    obtain ⟨rfl, rfl⟩ := Prod.mk.inj moved
    simp only at left right top bottom
    refine ⟨?_, ?_, left, right⟩ <;> simp only [Box.quarter] <;> omega
  · rintro ⟨left, right, top, bottom⟩
    simp only [Box.quarter] at left right top bottom
    refine ⟨(y, frame.height - side - x), ⟨top, bottom, ?_, ?_⟩, ?_⟩
    · simp only
      omega
    · simp only
      omega
    · refine Prod.ext ?_ rfl
      simp only [quarterPoint]
      omega

theorem image_turn (side : Int) (quarters : Nat) (frame : Frame) (box : Box) :
    turnPoint side quarters frame '' box.squares side =
      (box.turn quarters frame).squares side := by
  induction quarters generalizing frame box with
  | zero => exact Set.image_id _
  | succ quarters ih =>
      have parts : turnPoint side (quarters + 1) frame =
          turnPoint side quarters frame.quarter ∘ quarterPoint side frame := rfl
      rw [parts, Set.image_comp, image_quarter, ih, Box.turn]

theorem image_flip (side : Int) (flip : Flip) (frame : Frame) (box : Box) :
    flipPoint side flip frame '' box.squares side = (box.flip flip frame).squares side := by
  obtain ⟨horizontal, vertical⟩ := flip
  ext ⟨x, y⟩
  constructor
  · rintro ⟨⟨u, v⟩, ⟨left, right, top, bottom⟩, moved⟩
    obtain ⟨rfl, rfl⟩ := Prod.mk.inj moved
    simp only at left right top bottom
    cases horizontal <;> cases vertical <;>
      refine ⟨?_, ?_, ?_, ?_⟩ <;> simp [Box.flip] <;> omega
  · rintro ⟨left, right, top, bottom⟩
    refine ⟨flipPoint side ⟨horizontal, vertical⟩ frame (x, y), ⟨?_, ?_, ?_, ?_⟩, ?_⟩ <;>
      cases horizontal <;> cases vertical <;>
      simp [flipPoint, Box.flip] at left right top bottom ⊢ <;> omega

/-! ## Boxes inside their frames -/

theorem Box.Inside.quarter {box : Box} {frame : Frame} (inside : box.Inside frame) :
    (box.quarter frame).Inside frame.quarter := by
  obtain ⟨left, width, right, top, height, bottom⟩ := inside
  constructor <;> simp only [Box.quarter, Frame.quarter] <;> omega

theorem Box.Inside.turn {box : Box} (quarters : Nat) {frame : Frame}
    (inside : box.Inside frame) : (box.turn quarters frame).Inside (frame.turn quarters) := by
  induction quarters generalizing frame box with
  | zero => exact inside
  | succ quarters ih => exact ih inside.quarter

theorem Box.Inside.flip {box : Box} {frame : Frame} (inside : box.Inside frame) (flip : Flip) :
    (box.flip flip frame).Inside frame := by
  obtain ⟨left, width, right, top, height, bottom⟩ := inside
  obtain ⟨horizontal, vertical⟩ := flip
  cases horizontal <;> cases vertical <;> constructor <;> simp [Box.flip] <;> omega

/-! ## Sizes -/

def Box.width (box : Box) : Int := box.right - box.left

def Box.height (box : Box) : Int := box.bottom - box.top

theorem Box.size_turn (quarters : Nat) (frame : Frame) (box : Box) :
    ((box.turn quarters frame).width, (box.turn quarters frame).height) =
      if quarters % 2 = 0 then (box.width, box.height) else (box.height, box.width) := by
  induction quarters generalizing frame box with
  | zero => rfl
  | succ quarters ih =>
      have width : (box.quarter frame).width = box.height := by
        simp only [Box.quarter, Box.width, Box.height]
        omega
      have height : (box.quarter frame).height = box.width := rfl
      rw [Box.turn, ih, width, height]
      by_cases even : quarters % 2 = 0
      · rw [if_pos even, if_neg (by omega)]
      · rw [if_neg even, if_pos (by omega)]

theorem Box.size_flip (flip : Flip) (frame : Frame) (box : Box) :
    (box.flip flip frame).width = box.width ∧ (box.flip flip frame).height = box.height := by
  obtain ⟨horizontal, vertical⟩ := flip
  cases horizontal <;> cases vertical <;> constructor <;>
    simp only [Box.flip, Box.width, Box.height, Bool.false_eq_true, if_true, if_false] <;> omega

end ImxTest.Lib.FrameTurn
