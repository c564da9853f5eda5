import ImxTest.Lib.ByteMem

/-!
# A stream read into places of memory

A plan is a list of places, each an address and a number of cells.  `scatter` puts the
cells of a stream into the places, one after the other.  `Placed` is the address at which a
plan puts the cell of an offset of the stream, so that plans can be compared by their
addresses alone.
-/

set_option autoImplicit false

namespace ImxTest.Lib.Scatter

open ImxTest.Lib.ByteMem

universe u

variable {Cell : Type u}

def scatter (mem : Nat → Cell) : List (Nat × Nat) → List Cell → Nat → Cell
  | [], _ => mem
  | (addr, count) :: plan, cells =>
      scatter (writeAt mem addr (cells.take count)) plan (cells.drop count)

def planSize (plan : List (Nat × Nat)) : Nat := (plan.map Prod.snd).sum

/-- `Placed plan addr offset`: the cell at the offset goes to the address. -/
def Placed : List (Nat × Nat) → (addr offset : Nat) → Prop
  | [], _, _ => False
  | (start, count) :: plan, addr, offset =>
      (addr = start + offset ∧ offset < count) ∨
        ∃ later, offset = count + later ∧ Placed plan addr later

def Ascending (plan : List (Nat × Nat)) : Prop :=
  plan.Pairwise fun place later => place.1 + place.2 ≤ later.1

def Within (low high : Nat) (plan : List (Nat × Nat)) : Prop :=
  ∀ place ∈ plan, low ≤ place.1 ∧ place.1 + place.2 ≤ high

@[simp]
theorem planSize_nil : planSize [] = 0 := rfl

@[simp]
theorem planSize_cons (place : Nat × Nat) (plan : List (Nat × Nat)) :
    planSize (place :: plan) = place.2 + planSize plan := by
  simp [planSize]

@[simp]
theorem planSize_append (first second : List (Nat × Nat)) :
    planSize (first ++ second) = planSize first + planSize second := by
  simp [planSize]

theorem scatter_append (mem : Nat → Cell) (first second : List (Nat × Nat))
    (cells : List Cell) :
    scatter mem (first ++ second) cells =
      scatter (scatter mem first cells) second (cells.drop (planSize first)) := by
  induction first generalizing mem cells with
  | nil => rfl
  | cons place first ih =>
      rw [List.cons_append, scatter, scatter, ih, List.drop_drop, planSize_cons]

theorem scatter_below (mem : Nat → Cell) (plan : List (Nat × Nat)) (cells : List Cell)
    (addr : Nat) (below : ∀ place ∈ plan, addr < place.1) :
    scatter mem plan cells addr = mem addr := by
  induction plan generalizing mem cells with
  | nil => rfl
  | cons place plan ih =>
      rw [scatter, ih _ _ fun later member => below later (List.mem_cons_of_mem _ member)]
      exact writeAt_outside _ _ _ _ (.inl (below place List.mem_cons_self))

theorem Placed.lt_planSize {plan : List (Nat × Nat)} {addr offset : Nat}
    (placed : Placed plan addr offset) : offset < planSize plan := by
  induction plan generalizing offset with
  | nil => exact placed.elim
  | cons place plan ih =>
      rw [planSize_cons]
      rcases placed with ⟨-, inside⟩ | ⟨later, rfl, placed⟩
      · omega
      · have := ih placed
        omega

theorem Placed.left {first : List (Nat × Nat)} {addr offset : Nat}
    (placed : Placed first addr offset) (second : List (Nat × Nat)) :
    Placed (first ++ second) addr offset := by
  induction first generalizing offset with
  | nil => exact placed.elim
  | cons place first ih =>
      rcases placed with here | ⟨later, rfl, placed⟩
      · exact .inl here
      · exact .inr ⟨later, rfl, ih placed⟩

theorem Placed.right {second : List (Nat × Nat)} {addr offset : Nat}
    (placed : Placed second addr offset) (first : List (Nat × Nat)) :
    Placed (first ++ second) addr (planSize first + offset) := by
  induction first with
  | nil => simpa using placed
  | cons place first ih => exact .inr ⟨_, by rw [planSize_cons, Nat.add_assoc], ih⟩

theorem scatter_placed (mem : Nat → Cell) {plan : List (Nat × Nat)} {cells : List Cell}
    (ascending : Ascending plan) (enough : planSize plan ≤ cells.length) {addr offset : Nat}
    (placed : Placed plan addr offset) :
    cells[offset]? = some (scatter mem plan cells addr) := by
  induction plan generalizing mem cells offset with
  | nil => exact placed.elim
  | cons place plan ih =>
      obtain ⟨start, count⟩ := place
      obtain ⟨before, ascending⟩ := List.pairwise_cons.mp ascending
      rw [planSize_cons] at enough
      simp only at enough before
      rw [scatter]
      rcases placed with ⟨rfl, inside⟩ | ⟨later, rfl, placed⟩
      · have taken : offset < (cells.take count).length := by
          rw [List.length_take]
          omega
        have above : ∀ other ∈ plan, start + offset < other.1 := by
          intro other member
          have := before other member
          omega
        rw [scatter_below _ _ _ _ above, writeAt_inside _ _ _ _ taken, List.getElem_take,
          List.getElem?_eq_getElem]
      · have rest : planSize plan ≤ (cells.drop count).length := by
          rw [List.length_drop]
          omega
        rw [← ih _ ascending rest placed, List.getElem?_drop]

theorem Ascending.append {first second : List (Nat × Nat)} {middle low high : Nat}
    (before : Ascending first) (behind : Ascending second) (inFirst : Within low middle first)
    (inSecond : Within middle high second) : Ascending (first ++ second) := by
  refine List.pairwise_append.mpr ⟨before, behind, ?_⟩
  intro place member later laterMember
  have := inFirst place member
  have := inSecond later laterMember
  omega

theorem Within.append {first second : List (Nat × Nat)} {low high : Nat}
    (inFirst : Within low high first) (inSecond : Within low high second) :
    Within low high (first ++ second) :=
  List.forall_mem_append.mpr ⟨inFirst, inSecond⟩

theorem Within.mono {plan : List (Nat × Nat)} {low high low' high' : Nat}
    (within : Within low high plan) (lower : low' ≤ low) (higher : high ≤ high') :
    Within low' high' plan := by
  intro place member
  have := within place member
  omega

theorem ascending_one (place : Nat × Nat) : Ascending [place] := List.pairwise_singleton _ _

/-! ## Rows -/

/-- `rows` places of `width` cells, a `stride` apart. -/
def rowPlan (start stride width : Nat) : (rows : Nat) → List (Nat × Nat)
  | 0 => []
  | rows + 1 => (start, width) :: rowPlan (start + stride) stride width rows

@[simp]
theorem planSize_rowPlan (start stride width rows : Nat) :
    planSize (rowPlan start stride width rows) = rows * width := by
  induction rows generalizing start with
  | zero => simp [rowPlan]
  | succ rows ih =>
      rw [rowPlan, planSize_cons, ih, Nat.succ_mul, Nat.add_comm]

theorem rowPlan_placed {start stride width rows r c : Nat} (row : r < rows)
    (column : c < width) :
    Placed (rowPlan start stride width rows) (start + r * stride + c) (r * width + c) := by
  induction rows generalizing start r with
  | zero => omega
  | succ rows ih =>
      cases r with
      | zero => exact .inl ⟨by omega, by omega⟩
      | succ r =>
          refine .inr ⟨r * width + c, by rw [Nat.succ_mul]; omega, ?_⟩
          have place : start + (r + 1) * stride + c = start + stride + r * stride + c := by
            rw [Nat.succ_mul]
            omega
          rw [place]
          exact ih (by omega)

theorem rowPlan_within {start stride width rows : Nat} (fits : width ≤ stride) :
    Within start (start + rows * stride) (rowPlan start stride width rows) := by
  induction rows generalizing start with
  | zero => exact fun _ member => absurd member List.not_mem_nil
  | succ rows ih =>
      rw [Nat.succ_mul]
      refine List.forall_mem_cons.mpr ⟨⟨Nat.le_refl _, by simp only; omega⟩, ?_⟩
      have later : Within (start + stride) (start + stride + rows * stride)
          (rowPlan (start + stride) stride width rows) := ih
      exact later.mono (by omega) (by omega)

theorem rowPlan_ascending {start stride width rows : Nat} (fits : width ≤ stride) :
    Ascending (rowPlan start stride width rows) := by
  induction rows generalizing start with
  | zero => exact List.Pairwise.nil
  | succ rows ih =>
      refine List.Pairwise.cons ?_ ih
      intro later member
      have := (rowPlan_within fits later member).1
      simp only
      omega

end ImxTest.Lib.Scatter
