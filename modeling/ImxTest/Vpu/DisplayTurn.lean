import Mathlib.Data.List.Nodup
import Mathlib.Data.Int.ModEq
import ImxTest.Vpu.Ownership

/-!
# The three ways to take turns with the display

* `Direct`: the buffers of the VPU itself are shown; the spare ones came back and
  wait for their display flag to be cleared.
* `Ring`: pictures are written to buffers behind the registered ones; the next
  target is a fresh buffer at first and then the one that came back.
* `Cyclic`: the targets go round all the registered buffers.
-/

set_option autoImplicit false

namespace ImxTest.Vpu.DisplayTurn

open ImxTest.Vpu.Ownership

/-- The buffers that `disp_clr_index` stands for. -/
def clrList (dispClrIndex : Int) : List Int :=
  if 0 ≤ dispClrIndex then [dispClrIndex] else []

theorem clrList_of_neg {dispClrIndex : Int} (negative : dispClrIndex < 0) :
    clrList dispClrIndex = [] :=
  if_neg (by omega)

theorem clrList_length (dispClrIndex : Int) : (clrList dispClrIndex).length ≤ 1 := by
  unfold clrList
  split <;> simp

theorem clrList_getD_eq (back : Option Int) :
    clrList (back.getD (-1)) = back.toList ∨ clrList (back.getD (-1)) = [] := by
  cases back with
  | none => exact .inl rfl
  | some index =>
      unfold clrList
      split
      · exact .inl rfl
      · exact .inr rfl

theorem clrList_getD_sublist (back : Option Int) :
    List.Sublist (clrList (back.getD (-1))) back.toList := by
  rcases clrList_getD_eq back with same | none
  · rw [same]
  · rw [none]
    exact List.nil_sublist _

/-! ## The buffers of the VPU -/

/-- Spare and shown buffers are different ones, with their flag set and not
cleared since they were shown. -/
structure Direct (once : Bool) (spare window : List Int) (log : List Op) : Prop where
  shows : Shows once window log
  nodup : (spare ++ window).Nodup
  held : ∀ index ∈ spare ++ window, index ∈ flagged log ∧ index ∉ cleared log

section Direct
variable {once : Bool} {spare window : List Int} {log : List Op}

theorem direct_nil (once : Bool) : Direct once [] [] [] :=
  ⟨shows_nil once, List.nodup_nil, by simp⟩

theorem Direct.sublist {less : List Int} (direct : Direct once spare window log)
    (sub : List.Sublist less spare) : Direct once less window log := by
  have both : List.Sublist (less ++ window) (spare ++ window) :=
    List.Sublist.append sub (List.Sublist.refl window)
  exact ⟨direct.shows, direct.nodup.sublist both, fun index mem =>
    direct.held index (both.subset mem)⟩

/-- A new picture is shown; what came back joins the spare buffers. -/
theorem Direct.put {index : Int} (kept : Nat) (direct : Direct once spare window log)
    (unflagged : index ∉ flagged log) :
    Direct once (spare ++ (windowPut kept window index).2.toList)
      (windowPut kept window index).1
      (log ++ [.output index] ++ putOps kept window index) := by
  have unheld : index ∉ spare ++ window := fun mem => unflagged (direct.held index mem).1
  have fresh : index ∉ window := fun mem => unheld (List.mem_append_right spare mem)
  have same : spare ++ (windowPut kept window index).2.toList ++ (windowPut kept window index).1 =
      spare ++ window ++ [index] := by
    rw [List.append_assoc, windowPut_append, List.append_assoc]
  refine ⟨(direct.shows.output index).put kept fresh, ?_, ?_⟩
  · rw [same]
    exact List.nodup_append'.mpr ⟨direct.nodup, List.nodup_singleton index,
      List.disjoint_singleton.mpr unheld⟩
  · intro other mem
    rw [same] at mem
    rw [flagged_putOps, cleared_putOps, flagged_snoc, cleared_snoc]
    simp only [flaggedStep, clearedStep, List.mem_cons, List.mem_filter, decide_eq_true_eq]
    rcases List.mem_append.mp mem with old | new
    · obtain ⟨flag, clear⟩ := direct.held other old
      exact ⟨.inr flag, fun cleared => clear cleared.1⟩
    · obtain rfl := List.mem_singleton.mp new
      exact ⟨.inl rfl, fun cleared => cleared.2 rfl⟩

theorem Direct.clrDispFlag {index : Int} (direct : Direct once (index :: spare) window log) :
    Direct once spare window (log ++ [.clrDispFlag index]) := by
  obtain ⟨apart, nodup⟩ := List.nodup_cons.mp direct.nodup
  have fresh : index ∉ window := fun mem => apart (List.mem_append_right spare mem)
  have held := direct.held index (by simp)
  refine ⟨direct.shows.clrDispFlag fresh fun _ => held.2, nodup, ?_⟩
  intro other mem
  obtain ⟨flag, clear⟩ := direct.held other (by simpa using .inr (List.mem_append.mp mem))
  have different : other ≠ index := by
    rintro rfl
    exact apart mem
  rw [flagged_snoc, cleared_snoc]
  simp only [flaggedStep, clearedStep, List.mem_cons, List.mem_filter, decide_eq_true_eq]
  exact ⟨⟨flag, different⟩, fun both => both.elim different clear⟩

theorem Direct.clrList {dispClrIndex : Int}
    (direct : Direct once (DisplayTurn.clrList dispClrIndex ++ spare) window log) :
    Direct once spare window
      (log ++ (DisplayTurn.clrList dispClrIndex).map Op.clrDispFlag) := by
  by_cases some : 0 ≤ dispClrIndex
  · simp only [DisplayTurn.clrList, if_pos some] at direct ⊢
    exact direct.clrDispFlag
  · simp only [DisplayTurn.clrList, if_neg some] at direct ⊢
    simpa using direct

end Direct

/-! ## Buffers behind the registered ones -/

structure Ring (regfbcount kept : Nat) (window : List Int) (rotid : Int) : Prop where
  short : window.length ≤ kept
  nodup : (window ++ [rotid]).Nodup
  behind : ∀ index ∈ window ++ [rotid], (regfbcount : Int) ≤ index
  /-- The fresh buffers come in order. -/
  filling : window.length < kept → rotid = regfbcount + window.length ∧
    ∀ index ∈ window, index < rotid

theorem ring_nil (regfbcount kept : Nat) : Ring regfbcount kept [] regfbcount := by
  refine ⟨Nat.zero_le _, List.nodup_singleton _, ?_, ?_⟩
  · intro index mem
    simp only [List.nil_append, List.mem_singleton] at mem
    exact le_of_eq mem.symm
  · intro _
    simp

theorem Ring.fresh {regfbcount kept : Nat} {window : List Int} {rotid : Int}
    (ring : Ring regfbcount kept window rotid) : rotid ∉ window := by
  intro mem
  exact (List.nodup_append'.mp ring.nodup).2.2 mem (List.mem_singleton.mpr rfl)

/-- The target after `rotid` was shown: the buffer that came back, or the next
fresh one. -/
theorem Ring.put {regfbcount kept : Nat} {window : List Int} {rotid : Int}
    (ring : Ring regfbcount kept window rotid) :
    Ring regfbcount kept (windowPut kept window rotid).1
      ((windowPut kept window rotid).2.getD (rotid + 1)) := by
  have short := windowPut_length kept window rotid ring.short
  have same := windowPut_append kept window rotid
  by_cases room : window.length < kept
  · obtain ⟨next, below⟩ := ring.filling room
    rw [windowPut_room kept window rotid room] at short ⊢
    simp only [Option.getD_none]
    have below' : ∀ index ∈ window ++ [rotid], index < rotid + 1 := by
      intro index mem
      rcases List.mem_append.mp mem with old | new
      · have := below index old
        omega
      · have := List.mem_singleton.mp new
        omega
    refine ⟨short, ?_, ?_, ?_⟩
    · refine List.nodup_append'.mpr ⟨ring.nodup, List.nodup_singleton _,
        List.disjoint_singleton.mpr ?_⟩
      intro mem
      have := below' _ mem
      omega
    · intro index mem
      rcases List.mem_append.mp mem with old | new
      · exact ring.behind index old
      · have := List.mem_singleton.mp new
        omega
    · intro _
      refine ⟨?_, below'⟩
      simp only [List.length_append, List.length_singleton]
      omega
  · -- the oldest buffer comes back and nothing else changes places
    cases back : (windowPut kept window rotid).2 with
    | none =>
        rw [back, Option.toList_none, List.nil_append] at same
        rw [same, List.length_append, List.length_singleton] at short
        omega
    | some oldest =>
        rw [back, Option.toList_some, List.singleton_append] at same
        have length := congrArg List.length same
        simp only [List.length_cons, List.length_append, List.length_nil] at length
        have turned : List.Perm ((windowPut kept window rotid).1 ++ [oldest])
            (window ++ [rotid]) := by
          rw [← same]
          exact List.perm_append_singleton _ _
        refine ⟨short, turned.nodup_iff.mpr ring.nodup, ?_, ?_⟩
        · intro index mem
          exact ring.behind index (turned.subset mem)
        · intro _
          omega

/-- The test for -1 tells whether a buffer came back. -/
theorem Ring.back_eq {regfbcount kept : Nat} {window : List Int} {rotid : Int}
    (ring : Ring regfbcount kept window rotid) (fresh : Int) :
    (if (windowPut kept window rotid).2.getD (-1) ≠ -1 then
      (windowPut kept window rotid).2.getD (-1) else fresh) =
      (windowPut kept window rotid).2.getD fresh := by
  have same := windowPut_append kept window rotid
  cases back : (windowPut kept window rotid).2 with
  | none => simp
  | some oldest =>
      rw [back, Option.toList_some] at same
      have behind := ring.behind oldest (by rw [← same]; simp)
      simp only [Option.getD_some]
      exact if_pos (by omega)

theorem Ring.next_eq {regfbcount kept : Nat} {window : List Int} {rotid : Int}
    (ring : Ring regfbcount kept window rotid) :
    (windowPut kept window rotid).2.getD
        ((rotid + 1 - regfbcount).tmod ((kept + 1 : Nat) : Int) + regfbcount) =
      (windowPut kept window rotid).2.getD (rotid + 1) := by
  cases back : (windowPut kept window rotid).2 with
  | some oldest => rfl
  | none =>
      have room : window.length < kept := by
        have same := congrArg List.length (windowPut_append kept window rotid)
        have short := windowPut_length kept window rotid ring.short
        rw [back] at same
        simp only [Option.toList_none, List.nil_append, List.length_append,
          List.length_singleton] at same
        omega
      obtain ⟨next, _⟩ := ring.filling room
      have small : (rotid + 1 - regfbcount).tmod ((kept + 1 : Nat) : Int) =
          rotid + 1 - regfbcount :=
        Int.tmod_eq_of_lt (by omega) (by omega)
      simp only [Option.getD_none, small]
      omega

/-! ## All the registered buffers in turn -/

/-- A stretch of the turns modulo `count`. -/
def turns (count first length : Nat) : List Int :=
  (List.range' first length).map fun turn => ((turn % count : Nat) : Int)

@[simp]
theorem turns_length (count first length : Nat) : (turns count first length).length = length := by
  simp [turns]

theorem turns_succ (count first length : Nat) :
    turns count first (length + 1) =
      turns count first length ++ [(((first + length) % count : Nat) : Int)] := by
  simp [turns, List.range'_concat]

theorem turns_append (count first length more : Nat) :
    turns count first (length + more) =
      turns count first length ++ turns count (first + length) more := by
  induction more with
  | zero => simp [turns]
  | succ more ih =>
      rw [← Nat.add_assoc, turns_succ, ih, turns_succ, List.append_assoc, Nat.add_assoc]

theorem turns_nodup (count first length : Nat) (short : length ≤ count) :
    (turns count first length).Nodup := by
  refine List.Nodup.map_on ?_ (List.nodup_range')
  intro one memOne two memTwo same
  rw [List.mem_range'_1] at memOne memTwo
  have mod : one % count = two % count := by exact_mod_cast same
  rcases Nat.lt_trichotomy one two with less | rfl | less
  · exact absurd (Nat.eq_zero_of_dvd_of_lt ((Nat.modEq_iff_dvd' (by omega)).mp mod) (by omega))
      (by omega)
  · rfl
  · exact absurd (Nat.eq_zero_of_dvd_of_lt ((Nat.modEq_iff_dvd' (by omega)).mp mod.symm)
      (by omega)) (by omega)

/-- Spare buffers, window and target are consecutive turns. -/
def Cyclic (count : Nat) (spare window : List Int) (rotid : Int) : Prop :=
  ∃ first, spare ++ window ++ [rotid] = turns count first (spare.length + window.length + 1)

theorem cyclic_nil (count : Nat) : Cyclic count [] [] 0 := ⟨0, by simp [turns]⟩

theorem Cyclic.nodup {count : Nat} {spare window : List Int} {rotid : Int}
    (cyclic : Cyclic count spare window rotid)
    (short : spare.length + window.length + 1 ≤ count) : (spare ++ window ++ [rotid]).Nodup := by
  obtain ⟨first, same⟩ := cyclic
  rw [same]
  exact turns_nodup count first _ short

theorem Cyclic.drop {count : Nat} {old spare window : List Int} {rotid : Int}
    (cyclic : Cyclic count (old ++ spare) window rotid) : Cyclic count spare window rotid := by
  obtain ⟨first, same⟩ := cyclic
  rw [List.length_append, show old.length + spare.length + window.length + 1 =
    old.length + (spare.length + window.length + 1) by omega, turns_append,
    List.append_assoc, List.append_assoc, ← List.append_assoc spare] at same
  exact ⟨first + old.length, (List.append_inj same (by simp)).2⟩

theorem Cyclic.forget {count : Nat} {spare window : List Int} {rotid : Int}
    (cyclic : Cyclic count spare window rotid) : Cyclic count [] window rotid := by
  rw [← List.append_nil spare] at cyclic
  exact cyclic.drop

theorem Cyclic.fresh {count : Nat} {spare window : List Int} {rotid : Int}
    (cyclic : Cyclic count spare window rotid) (short : window.length + 1 ≤ count) :
    rotid ∉ window := by
  intro mem
  have nodup := cyclic.forget.nodup (by simpa using short)
  rw [List.nil_append] at nodup
  exact (List.nodup_append'.mp nodup).2.2 mem (List.mem_singleton.mpr rfl)

theorem Cyclic.put {count : Nat} {spare window : List Int} {rotid : Int} (kept : Nat)
    (cyclic : Cyclic count spare window rotid) :
    Cyclic count (spare ++ (windowPut kept window rotid).2.toList)
      (windowPut kept window rotid).1 ((rotid + 1).tmod count) := by
  obtain ⟨first, same⟩ := cyclic
  have back := windowPut_append kept window rotid
  have length := congrArg List.length back
  simp only [List.length_append, List.length_cons, List.length_nil] at length
  have last : rotid = (((first + (spare.length + window.length)) % count : Nat) : Int) := by
    rw [turns_succ] at same
    exact List.singleton_inj.mp (List.append_inj' same rfl).2
  have next : (rotid + 1).tmod count =
      (((first + (spare.length + window.length + 1)) % count : Nat) : Int) := by
    rw [last, ← Nat.add_assoc first _ 1, ← Nat.mod_add_mod (first + (spare.length + window.length))]
    exact (Int.ofNat_tmod _ _).symm
  refine ⟨first, ?_⟩
  rw [List.append_assoc spare, back, ← List.append_assoc, same, next, List.length_append,
    show spare.length + (windowPut kept window rotid).2.toList.length +
      (windowPut kept window rotid).1.length + 1 = spare.length + window.length + 1 + 1 by omega]
  exact (turns_succ count first _).symm

end ImxTest.Vpu.DisplayTurn
