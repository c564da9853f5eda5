import Mathlib.Algebra.Ring.Nat
import Mathlib.Tactic.Common

/-!
# Maps of words that exclusive or passes through

Such a map is known from its values on the words with a single bit, so that two
of them are compared on finitely many words.
-/

set_option autoImplicit false

namespace ImxTest.Lib.XorLinear

variable {n m k : Nat}

def Linear (f : BitVec n → BitVec m) : Prop :=
  ∀ x y, f (x ^^^ y) = f x ^^^ f y

section Linear
variable {f g : BitVec n → BitVec m}

theorem Linear.zero (linear : Linear f) : f 0#n = 0#m := by
  have twice := linear 0#n 0#n
  rwa [BitVec.xor_self, BitVec.xor_self] at twice

/-- A word without bits from `width` on. -/
def Below (width : Nat) (x : BitVec n) : Prop :=
  ∀ i, width ≤ i → x.getLsbD i = false

theorem below_zero {x : BitVec n} (below : Below 0 x) : x = 0#n := by
  apply BitVec.eq_of_getLsbD_eq
  intro i _
  rw [below i (Nat.zero_le i), BitVec.getLsbD_zero]

theorem Below.of_clear {width : Nat} {x : BitVec n} (below : Below (width + 1) x)
    (clear : x.getLsbD width = false) : Below width x := by
  intro i above
  by_cases top : i = width
  · rw [top, clear]
  · exact below i (by omega)

/-- Without its highest bit a word is below that bit. -/
theorem Below.without_top {width : Nat} {x : BitVec n} (below : Below (width + 1) x)
    (set : x.getLsbD width = true) : Below width (x ^^^ BitVec.twoPow n width) := by
  have inside : width < n := BitVec.lt_of_getLsbD set
  intro i above
  rw [BitVec.getLsbD_xor, BitVec.getLsbD_twoPow]
  by_cases top : width = i
  · subst top
    simp [set, inside]
  · rw [below i (by omega)]
    simp [top]

theorem Linear.eq_below (linearF : Linear f) (linearG : Linear g)
    (basis : ∀ i, i < n → f (BitVec.twoPow n i) = g (BitVec.twoPow n i)) :
    ∀ (width : Nat) (x : BitVec n), Below width x → f x = g x := by
  intro width
  induction width with
  | zero =>
      intro x below
      rw [below_zero below, linearF.zero, linearG.zero]
  | succ width ih =>
      intro x below
      cases top : x.getLsbD width with
      | false => exact ih x (below.of_clear top)
      | true =>
          have inside : width < n := BitVec.lt_of_getLsbD top
          have rest := ih _ (below.without_top top)
          have whole : x = (x ^^^ BitVec.twoPow n width) ^^^ BitVec.twoPow n width := by
            rw [BitVec.xor_assoc, BitVec.xor_self, BitVec.xor_zero]
          rw [whole, linearF, linearG, rest, basis width inside]

theorem Linear.ext (linearF : Linear f) (linearG : Linear g)
    (basis : ∀ i, i < n → f (BitVec.twoPow n i) = g (BitVec.twoPow n i)) (x : BitVec n) :
    f x = g x :=
  linearF.eq_below linearG basis n x fun i above => BitVec.getLsbD_of_ge x i above

end Linear

/-! ## Two arguments -/

def Linear₂ (f : BitVec n → BitVec m → BitVec k) : Prop :=
  ∀ x x' y y', f (x ^^^ x') (y ^^^ y') = f x y ^^^ f x' y'

section Linear₂
variable {f g : BitVec n → BitVec m → BitVec k}

theorem Linear₂.left (linear : Linear₂ f) : Linear fun x => f x 0#m := by
  intro x x'
  have both := linear x x' 0#m 0#m
  rwa [BitVec.xor_self] at both

theorem Linear₂.right (linear : Linear₂ f) : Linear fun y => f 0#n y := by
  intro y y'
  have both := linear 0#n 0#n y y'
  rwa [BitVec.xor_self] at both

theorem Linear₂.split (linear : Linear₂ f) (x : BitVec n) (y : BitVec m) :
    f x y = f x 0#m ^^^ f 0#n y := by
  have both := linear x 0#n 0#m y
  rwa [BitVec.xor_zero, BitVec.zero_xor] at both

theorem Linear₂.ext (linearF : Linear₂ f) (linearG : Linear₂ g)
    (left : ∀ i, i < n → f (BitVec.twoPow n i) 0#m = g (BitVec.twoPow n i) 0#m)
    (right : ∀ i, i < m → f 0#n (BitVec.twoPow m i) = g 0#n (BitVec.twoPow m i))
    (x : BitVec n) (y : BitVec m) : f x y = g x y := by
  rw [linearF.split x y, linearG.split x y, linearF.left.ext linearG.left left x,
    linearF.right.ext linearG.right right y]

end Linear₂

end ImxTest.Lib.XorLinear
