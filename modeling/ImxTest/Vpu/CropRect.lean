import Mathlib.Tactic.IntervalCases
import ImxTest.Lib.FrameTurn

/-!
# The cropping rectangle of a rotated picture

`swapCropRect` of `dec.c`, and word for word of `transcode.c`, takes the rectangle of the
bitstream to the picture that the VPU has rotated and mirrored.  It chooses one of eight
modes from the angle and the mirror direction, and each mode has its own four formulas.

The reference turns the frame clockwise, a quarter at a time, and then mirrors it.
-/

set_option autoImplicit false

namespace ImxTest.Vpu.CropRect

open ImxTest.Lib.FrameTurn

/-- An `unsigned` of the rectangle.  An `int` that is added to one has the same bits. -/
abbrev Word : Type := BitVec 32

structure Rect where
  left : Word
  top : Word
  right : Word
  bottom : Word
  deriving DecidableEq, Repr

/-- `MIRDIR_NONE`, `MIRDIR_VER`, `MIRDIR_HOR` and `MIRDIR_HOR_VER`. -/
inductive MirrorDirection where
  | none
  | ver
  | hor
  | horVer
  deriving DecidableEq, Repr

/-- What `swapCropRect` reads of the decoder and its command line. -/
structure Decode where
  rotAngle : Int
  mirror : MirrorDirection
  picwidth : Word
  picheight : Word
  picCropRect : Rect
  deriving DecidableEq, Repr

def cropMode (rotAngle : Int) (mirDir : MirrorDirection) : Nat :=
  if rotAngle = 0 then
    match mirDir with
    | .none => 0
    | .ver => 5
    | .hor => 4
    | .horVer => 2
  else if rotAngle = 90 then
    match mirDir with
    | .none => 3
    | .ver => 7
    | .hor => 6
    | .horVer => 1
  else if rotAngle = 180 then
    match mirDir with
    | .none => 2
    | .ver => 4
    | .hor => 5
    | .horVer => 0
  else if rotAngle = 270 then
    match mirDir with
    | .none => 1
    | .ver => 6
    | .hor => 7
    | .horVer => 3
  else 0

/-- The formulas of a mode.  `rotCrop` is what the caller has in its variable. -/
def modeRect (framebufWidth framebufHeight : Word) (norCrop rotCrop : Rect) : Nat → Rect
  | 0 =>
      { bottom := norCrop.bottom
        left := norCrop.left
        right := norCrop.right
        top := norCrop.top }
  | 1 =>
      { bottom := framebufWidth - norCrop.left
        left := norCrop.top
        right := norCrop.bottom
        top := framebufWidth - norCrop.right }
  | 2 =>
      { bottom := framebufHeight - norCrop.top
        left := framebufWidth - norCrop.right
        right := framebufWidth - norCrop.left
        top := framebufHeight - norCrop.bottom }
  | 3 =>
      { bottom := norCrop.right
        left := framebufHeight - norCrop.bottom
        right := framebufHeight - norCrop.top
        top := norCrop.left }
  | 4 =>
      { bottom := norCrop.bottom
        left := framebufWidth - norCrop.right
        right := framebufWidth - norCrop.left
        top := norCrop.top }
  | 5 =>
      { bottom := framebufHeight - norCrop.top
        left := norCrop.left
        right := norCrop.right
        top := framebufHeight - norCrop.bottom }
  | 6 =>
      { bottom := norCrop.right
        left := norCrop.top
        right := norCrop.bottom
        top := norCrop.left }
  | 7 =>
      { bottom := framebufWidth - norCrop.left
        left := framebufHeight - norCrop.bottom
        right := framebufHeight - norCrop.top
        top := framebufWidth - norCrop.right }
  | _ => rotCrop

/-- `crop`, which is 0 if there is no cropping info in the bitstream. -/
def Rect.crop (rect : Rect) : Word :=
  rect.left ||| rect.top ||| rect.right ||| rect.bottom

def swapCropRect (dec : Decode) (rotCrop : Rect) : Rect :=
  let norCrop := dec.picCropRect
  if norCrop.crop = 0 then norCrop
  else modeRect dec.picwidth dec.picheight norCrop rotCrop (cropMode dec.rotAngle dec.mirror)

/-! ## The reference -/

def Rect.box (rect : Rect) : Box :=
  ⟨rect.left.toNat, rect.top.toNat, rect.right.toNat, rect.bottom.toNat⟩

def Decode.frame (dec : Decode) : Frame :=
  ⟨dec.picwidth.toNat, dec.picheight.toNat⟩

def MirrorDirection.flip : MirrorDirection → Flip
  | .none => ⟨false, false⟩
  | .ver => ⟨false, true⟩
  | .hor => ⟨true, false⟩
  | .horVer => ⟨true, true⟩

/-- Where the picture shows a square of the frame, after as many quarters clockwise and
the mirror. -/
def shown (dec : Decode) (quarters : Nat) (side : Int) (p : Int × Int) : Int × Int :=
  flipPoint side dec.mirror.flip (dec.frame.turn quarters)
    (turnPoint side quarters dec.frame p)

def shownBox (dec : Decode) (quarters : Nat) : Box :=
  (dec.picCropRect.box.turn quarters dec.frame).flip dec.mirror.flip (dec.frame.turn quarters)

theorem image_shown (dec : Decode) (quarters : Nat) (side : Int) :
    shown dec quarters side '' dec.picCropRect.box.squares side =
      (shownBox dec quarters).squares side := by
  have parts : shown dec quarters side =
      flipPoint side dec.mirror.flip (dec.frame.turn quarters) ∘
        turnPoint side quarters dec.frame := rfl
  rw [parts, Set.image_comp, image_turn, image_flip, shownBox]

/-! ## The eight modes -/

theorem toNat_sub_le {a b : Word} (le : b.toNat ≤ a.toNat) :
    ((a - b).toNat : Int) = a.toNat - b.toNat := by
  rw [BitVec.toNat_sub_of_le le]
  omega

/-- The mode of an angle and a mirror is the turn and the flip. -/
theorem swapCropRect_box {dec : Decode} {quarters : Nat} (rotCrop : Rect) (few : quarters < 4)
    (angle : dec.rotAngle = 90 * quarters) (inside : dec.picCropRect.box.Inside dec.frame)
    (cropped : dec.picCropRect.crop ≠ 0) :
    (swapCropRect dec rotCrop).box = shownBox dec quarters := by
  obtain ⟨rotAngle, mirror, picwidth, picheight, picCropRect⟩ := dec
  obtain ⟨-, width, right, -, height, bottom⟩ := inside
  simp only [Rect.box, Decode.frame] at angle width right height bottom
  have subs : ((picwidth - picCropRect.left).toNat : Int) =
        picwidth.toNat - picCropRect.left.toNat ∧
      ((picwidth - picCropRect.right).toNat : Int) =
        picwidth.toNat - picCropRect.right.toNat ∧
      ((picheight - picCropRect.top).toNat : Int) =
        picheight.toNat - picCropRect.top.toNat ∧
      ((picheight - picCropRect.bottom).toNat : Int) =
        picheight.toNat - picCropRect.bottom.toNat :=
    ⟨toNat_sub_le (by omega), toNat_sub_le (by omega), toNat_sub_le (by omega),
      toNat_sub_le (by omega)⟩
  obtain ⟨subLeft, subRight, subTop, subBottom⟩ := subs
  rw [swapCropRect, if_neg cropped]
  subst angle
  interval_cases quarters <;> cases mirror <;>
    simp [cropMode, modeRect, Rect.box, shownBox, Decode.frame, MirrorDirection.flip, Box.turn,
      Box.quarter, Box.flip, Frame.turn, Frame.quarter, -BitVec.toNat_sub, subLeft, subRight,
      subTop, subBottom]

/-- Shown squares of the rectangle are those of the new one: with side 1 its pixels, with
side 0 its points, corners and edges included. -/
theorem swapCropRect_follows (dec : Decode) (rotCrop : Rect) (quarters : Nat)
    (few : quarters < 4) (angle : dec.rotAngle = 90 * quarters)
    (inside : dec.picCropRect.box.Inside dec.frame) (cropped : dec.picCropRect.crop ≠ 0) :
    (∀ side, shown dec quarters side '' dec.picCropRect.box.squares side =
      (swapCropRect dec rotCrop).box.squares side) ∧
    (swapCropRect dec rotCrop).box.Inside (dec.frame.turn quarters) ∧
    ((swapCropRect dec rotCrop).box.width, (swapCropRect dec rotCrop).box.height) =
      if quarters % 2 = 0 then (dec.picCropRect.box.width, dec.picCropRect.box.height)
      else (dec.picCropRect.box.height, dec.picCropRect.box.width) := by
  rw [swapCropRect_box rotCrop few angle inside cropped]
  refine ⟨fun side => image_shown dec quarters side, (inside.turn quarters).flip _, ?_⟩
  obtain ⟨width, height⟩ := Box.size_flip dec.mirror.flip (dec.frame.turn quarters)
    (dec.picCropRect.box.turn quarters dec.frame)
  rw [shownBox, width, height, Box.size_turn]

/-- A corner of a wide frame, turned right and mirrored upside down. -/
theorem swapCropRect_follows_ninety :
    let dec : Decode := ⟨90, .ver, 320, 144, ⟨0, 8, 16, 136⟩⟩
    swapCropRect dec ⟨0, 0, 0, 0⟩ = ⟨8, 304, 136, 320⟩ ∧
      shown dec 1 1 '' dec.picCropRect.box.squares 1 =
        (swapCropRect dec ⟨0, 0, 0, 0⟩).box.squares 1 := by
  intro dec
  have inside : dec.picCropRect.box.Inside dec.frame := by
    constructor <;> decide
  exact ⟨by decide,
    (swapCropRect_follows dec ⟨0, 0, 0, 0⟩ 1 (by decide) rfl inside (by decide)).1 1⟩

end ImxTest.Vpu.CropRect
