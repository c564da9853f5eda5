import Mathlib.Data.Fin.VecNotation
import Mathlib.Data.Fintype.Basic
import Mathlib.Tactic.FinCases
import ImxTest.Lib.ForLoop

/-!
# The report of the quantisation parameters

`SaveQpReport` prints the parameter of every macroblock of a picture.  The encoder
leaves a byte for each in a buffer whose rows are padded to whole words, the first
macroblock of four in the highest byte of the word.
-/

set_option autoImplicit false

namespace ImxTest.Vpu.QpReport

open ImxTest.Lib.ForLoop

abbrev Word : Type := BitVec 32

/-- ` %4d %4d %3d`. -/
structure Line where
  frameIdx : Int
  index : Int
  qp : BitVec 8
  deriving DecidableEq, Repr

/-- The arguments of a call, and the memory as the words at its addresses. -/
structure Call where
  qpReportAddr : Word
  picWidth : Int
  picHeight : Int
  frameIdx : Int
  load : Word → Word

def asInt (n : Int) : Int :=
  (BitVec.ofInt 32 n).toInt

structure State where
  lines : List Line
  lastQp : Fin 4 → BitVec 8
  reads : List Word

namespace Call

variable (call : Call)

def mbx : Int := call.picWidth.tdiv 16

def mbxof1 : Int := call.mbx.tmod 4

def mbxof4 : Int := call.mbx - call.mbxof1

def mby : Int := call.picHeight.tdiv 16

def mbxx : Int := (call.mbx + 3).tdiv 4 * 4

def line (index : Int) (qp : BitVec 8) : Line :=
  ⟨call.frameIdx, asInt index, qp⟩

def group (i j : Int) (state : State) : State :=
  let qpAddr := call.qpReportAddr + BitVec.ofInt 32 j + BitVec.ofInt 32 (call.mbxx * i)
  let qp := call.load qpAddr
  { state with
    lines := state.lines ++
      [call.line (call.mbx * i + j + 0) ((qp >>> 24).setWidth 8),
        call.line (call.mbx * i + j + 1) ((qp >>> 16).setWidth 8),
        call.line (call.mbx * i + j + 2) ((qp >>> 8).setWidth 8),
        call.line (call.mbx * i + j + 3) (qp.setWidth 8)]
    reads := state.reads ++ [qpAddr] }

/-- The word that the rest of a row is in. -/
def fetchLast (i : Int) (state : State) : State :=
  if call.mbxof1 > 0 then
    let qpAddr := call.qpReportAddr + BitVec.ofInt 32 (call.mbxx * i) +
      BitVec.ofInt 32 call.mbxof4
    let qp := call.load qpAddr
    { state with
      lastQp := ![(qp >>> 24).setWidth 8, (qp >>> 16).setWidth 8, (qp >>> 8).setWidth 8,
        qp.setWidth 8]
      reads := state.reads ++ [qpAddr] }
  else state

/-- A turn of the loop over the rest of a row; `lastQp` has four places. -/
def single (i j : Int) (state : State) : State :=
  { state with
    lines := state.lines ++
      [call.line (call.mbx * i + j + call.mbxof4) (state.lastQp (Fin.ofNat 4 j.toNat))] }

def row (i : Int) (state : State) : State :=
  forLoop call.mbxof1 1 (call.single i)
    (call.fetchLast i (forLoop call.mbxof4 4 (call.group i) state))

end Call

/-- What the file holds afterwards.  It is emptied for the first frame and continued for
the others; `opened` tells whether it could be. -/
def saveQpReport (call : Call) (opened : Bool) (lastQp : Fin 4 → BitVec 8) (file : List Line) :
    State :=
  if opened then
    forLoop call.mby 1 call.row ⟨if call.frameIdx = 0 then [] else file, lastQp, []⟩
  else ⟨file, lastQp, []⟩

/-! ## The layout of the buffer -/

namespace Call

variable (call : Call)

/-- Macroblocks are 16 by 16; those that the picture has only a part of do not count. -/
def columns : Nat := call.picWidth.toNat / 16

def rows : Nat := call.picHeight.toNat / 16

def stride : Nat := (call.columns + 3) / 4 * 4

/-- The byte of the macroblock in column `j` of row `i`. -/
def qpAt (i j : Nat) : BitVec 8 :=
  (call.load (call.qpReportAddr + BitVec.ofNat 32 (call.stride * i + j / 4 * 4)) >>>
    (24 - 8 * (j % 4))).setWidth 8

def macroblock (n : Nat) : Line :=
  ⟨call.frameIdx, n, call.qpAt (n / call.columns) (n % call.columns)⟩

end Call

/-- A call with a report buffer for its picture: the bytes of its rows are an object of
the 32 bit address space, and no object is larger than `PTRDIFF_MAX`. -/
structure Report extends Call where
  in_memory : qpReportAddr.toNat + toCall.rows * toCall.stride ≤ 2 ^ 32
  object : toCall.rows * toCall.stride < 2 ^ 31

/-! ## One row -/

section Row
variable (call : Call) (i : Int)

/-- What is printed for column `j`, and where its word is. -/
def wordAddr (j : Nat) : Word :=
  call.qpReportAddr + BitVec.ofInt 32 ((j / 4 * 4 : Nat) : Int) + BitVec.ofInt 32 (call.mbxx * i)

def cell (j : Nat) : Line :=
  call.line (call.mbx * i + j) ((call.load (wordAddr call i j) >>> (24 - 8 * (j % 4))).setWidth 8)

theorem tdiv_toNat (n : Int) : (n.tdiv 16).toNat = n.toNat / 16 := by
  have sign : Int.sign 16 = 1 := rfl
  rw [Int.tdiv_eq_ediv, sign]
  split <;> omega

theorem mbx_toNat : call.mbx.toNat = call.columns := tdiv_toNat call.picWidth

theorem mby_toNat : call.mby.toNat = call.rows := tdiv_toNat call.picHeight

theorem mbxof1_eq : call.mbxof1.toNat = call.columns % 4 := by
  rw [Call.mbxof1, ← mbx_toNat, Int.tmod_eq_emod]
  split <;> omega

theorem mbxof4_le : call.mbxof4 ≤ 4 * (call.columns / 4 : Nat) := by
  rw [Call.mbxof4, Call.mbxof1, ← mbx_toNat, Int.tmod_eq_emod]
  split <;> omega

theorem mbxof4_eq (wide : 0 < call.columns) : call.mbxof4 = 4 * (call.columns / 4 : Nat) := by
  rw [← mbx_toNat] at wide
  rw [Call.mbxof4, Call.mbxof1, ← mbx_toNat, Int.tmod_eq_emod]
  split <;> omega

/-- The four lines of a group, by the columns. -/
theorem group_cells (k : Nat) :
    [cell call i (4 * k + 0), cell call i (4 * k + 1), cell call i (4 * k + 2),
        cell call i (4 * k + 3)] =
      (List.range 4).map fun j => cell call i (4 * k + j) := rfl

theorem wordAddr_group (k j : Nat) (small : j < 4) :
    wordAddr call i (4 * k + j) =
      call.qpReportAddr + BitVec.ofInt 32 (4 * k) + BitVec.ofInt 32 (call.mbxx * i) := by
  have group : ((4 * k + j) / 4 * 4 : Nat) = 4 * k := by omega
  rw [wordAddr, group]
  rfl

/-- By the order of the bytes in a word. -/
theorem cell_group (k j : Nat) (small : j < 4) :
    cell call i (4 * k + j) =
      call.line (call.mbx * i + (4 * k : Nat) + j)
        ((call.load (call.qpReportAddr + BitVec.ofInt 32 (4 * k) +
          BitVec.ofInt 32 (call.mbxx * i)) >>> (24 - 8 * j)).setWidth 8) := by
  have byte : (4 * k + j) % 4 = j := by omega
  rw [cell, wordAddr_group call i k j small, byte]
  push_cast
  rw [Int.add_assoc]

def groups (state : State) : State :=
  forLoop call.mbxof4 4 (call.group i) state

theorem groups_appends {Item : Type} {list : State → List Item} {added : Int → List Item}
    (appends : ∀ j state, list (call.group i j state) = list state ++ added j) (state : State) :
    list (groups call i state) =
      list state ++ (List.range (call.columns / 4)).flatMap fun k : Nat => added (4 * k) := by
  by_cases wide : 0 < call.columns
  · have limit := mbxof4_eq call wide
    rw [groups, forLoop,
      @forFrom_appends _ _ _ _ _ _ _ (fun _ => True) (fun _ _ _ => trivial)
        (fun j state _ => appends j state) (call.columns / 4) _ (by omega) _
        (by intro k small; push_cast; omega) (by push_cast; omega) _ trivial]
    simp
  · have limit := mbxof4_le call
    have narrow : call.columns / 4 = 0 := by omega
    rw [narrow] at limit ⊢
    have zero : call.mbxof4.toNat = 0 := by omega
    rw [groups, forLoop, zero, List.range_zero, List.flatMap_nil, List.append_nil]
    rfl

theorem groups_lines (state : State) :
    (groups call i state).lines =
      state.lines ++ (List.range (4 * (call.columns / 4))).map (cell call i) := by
  rw [@groups_appends call i _ State.lines _ (fun j state => rfl), ← range_mul_flatMap]
  congr 1
  apply List.flatMap_congr
  intro k _
  rw [← group_cells, cell_group _ _ _ 0 (by decide), cell_group _ _ _ 1 (by decide),
    cell_group _ _ _ 2 (by decide), cell_group _ _ _ 3 (by decide)]
  rfl

theorem groups_reads (state : State) :
    (groups call i state).reads =
      state.reads ++ (List.range (call.columns / 4)).map fun k => wordAddr call i (4 * k) := by
  rw [@groups_appends call i _ State.reads _ (fun j state => rfl), List.map_eq_flatMap]
  congr 1
  apply List.flatMap_congr
  intro k _
  rw [← wordAddr_group call i k 0 (by decide), Nat.add_zero]

/-- The bytes of the word behind the groups, where the rest of a row is. -/
def lastBytes : Fin 4 → BitVec 8 :=
  fun b => (call.load (wordAddr call i (4 * (call.columns / 4))) >>> (24 - 8 * b.val)).setWidth 8

theorem fetchLast_rest (rest : 0 < call.columns % 4) (state : State) :
    call.fetchLast i state =
      { state with
        lastQp := lastBytes call i
        reads := state.reads ++ [wordAddr call i (4 * (call.columns / 4))] } := by
  have going : call.mbxof1 > 0 := by
    have count := mbxof1_eq call
    omega
  have place : call.qpReportAddr + BitVec.ofInt 32 (call.mbxx * i) +
      BitVec.ofInt 32 call.mbxof4 = wordAddr call i (4 * (call.columns / 4)) := by
    rw [mbxof4_eq call (by omega), ← Nat.add_zero (4 * _), wordAddr_group _ _ _ 0 (by decide),
      BitVec.add_assoc, BitVec.add_comm (BitVec.ofInt 32 (call.mbxx * i)), ← BitVec.add_assoc]
  have bytes (qp : Word) : (![(qp >>> 24).setWidth 8, (qp >>> 16).setWidth 8,
      (qp >>> 8).setWidth 8, qp.setWidth 8] : Fin 4 → BitVec 8) =
      fun b => (qp >>> (24 - 8 * b.val)).setWidth 8 := by
    funext b
    fin_cases b <;> rfl
  rw [Call.fetchLast, if_pos going]
  dsimp only
  rw [place, bytes]
  rfl

theorem fetchLast_whole (whole : call.columns % 4 = 0) (state : State) :
    call.fetchLast i state = state := by
  have count := mbxof1_eq call
  rw [Call.fetchLast, if_neg (by omega)]

theorem singles_lines {q : Fin 4 → BitVec 8} {state : State} (last : state.lastQp = q) :
    (forLoop call.mbxof1 1 (call.single i) state).lines =
      state.lines ++ (List.range (call.columns % 4)).map fun j : Nat =>
        call.line (call.mbx * i + j + call.mbxof4) (q (Fin.ofNat 4 j)) := by
  have appends : ∀ (j : Int) (state : State), state.lastQp = q →
      (call.single i j state).lines = state.lines ++
        [call.line (call.mbx * i + j + call.mbxof4) (q (Fin.ofNat 4 j.toNat))] := by
    intro j state same
    rw [← same]
    rfl
  rw [@forLoop_appends _ _ (call.single i) _ State.lines _ (fun state => state.lastQp = q)
    (fun j state same => same) appends _ last, mbxof1_eq, List.map_eq_flatMap]
  rfl

theorem singles_reads (state : State) :
    (forLoop call.mbxof1 1 (call.single i) state).reads = state.reads :=
  @forFrom_keeps _ _ _ (call.single i) (fun next : State => next.reads = state.reads)
    (fun _ _ same => same) _ _ _ rfl

theorem row_lines (state : State) :
    (call.row i state).lines = state.lines ++ (List.range call.columns).map (cell call i) := by
  have columns : call.columns = 4 * (call.columns / 4) + call.columns % 4 := by omega
  change (forLoop call.mbxof1 1 (call.single i)
    (call.fetchLast i (groups call i state))).lines = _
  by_cases rest : 0 < call.columns % 4
  · rw [fetchLast_rest call i rest, singles_lines call i rfl]
    dsimp only
    rw [groups_lines, columns, List.range_add, List.map_append, ← columns, List.append_assoc,
      List.map_map]
    congr 2
    apply List.map_congr_left
    intro j member
    have small : j < 4 := by
      have inside := List.mem_range.mp member
      omega
    rw [Function.comp_apply, cell_group call i _ j small, lastBytes, mbxof4_eq call (by omega),
      ← Nat.add_zero (4 * _), wordAddr_group _ _ _ 0 (by decide), Nat.add_zero, Fin.val_ofNat,
      Nat.mod_eq_of_lt small, Int.add_right_comm]
    rfl
  · have whole : call.columns % 4 = 0 := by omega
    rw [fetchLast_whole call i whole, singles_lines call i rfl, whole, List.range_zero,
      List.map_nil, List.append_nil, groups_lines]
    rw [whole, Nat.add_zero] at columns
    rw [← columns]

theorem row_reads (state : State) :
    (call.row i state).reads =
      state.reads ++ (List.range ((call.columns + 3) / 4)).map fun k =>
        wordAddr call i (4 * k) := by
  change (forLoop call.mbxof1 1 (call.single i)
    (call.fetchLast i (groups call i state))).reads = _
  by_cases rest : 0 < call.columns % 4
  · have words : (call.columns + 3) / 4 = call.columns / 4 + 1 := by omega
    rw [singles_reads, fetchLast_rest call i rest]
    dsimp only
    rw [groups_reads, words, List.range_succ, List.map_append, List.append_assoc]
    rfl
  · have words : (call.columns + 3) / 4 = call.columns / 4 := by omega
    rw [singles_reads, fetchLast_whole call i (by omega), groups_reads, words]

end Row

/-! ## The whole report -/

section Picture
variable (call : Call) (lastQp : Fin 4 → BitVec 8) (file : List Line)

theorem saveQpReport_lines :
    (saveQpReport call true lastQp file).lines =
      (if call.frameIdx = 0 then [] else file) ++
        (List.range call.rows).flatMap fun i : Nat =>
          (List.range call.columns).map (cell call i) := by
  rw [saveQpReport, if_pos rfl, ← mby_toNat]
  exact @forLoop_appends _ _ call.row _ State.lines _ (fun _ => True) (fun _ _ _ => trivial)
    (fun i state _ => row_lines call i state) _ trivial

theorem saveQpReport_reads :
    (saveQpReport call true lastQp file).reads =
      (List.range call.rows).flatMap fun i : Nat =>
        (List.range ((call.columns + 3) / 4)).map fun k => wordAddr call i (4 * k) := by
  rw [saveQpReport, if_pos rfl, ← mby_toNat]
  exact @forLoop_appends _ _ call.row _ State.reads _ (fun _ => True) (fun _ _ _ => trivial)
    (fun i state _ => row_reads call i state) _ trivial

theorem mbxx_eq (wide : 0 < call.columns) : call.mbxx = call.stride := by
  rw [← mbx_toNat] at wide
  rw [Call.mbxx, Call.stride, ← mbx_toNat, Int.tdiv_eq_ediv_of_nonneg (by omega)]
  omega

theorem wordAddr_eq (wide : 0 < call.columns) (i j : Nat) :
    wordAddr call i j =
      call.qpReportAddr + BitVec.ofNat 32 (call.stride * i + j / 4 * 4) := by
  rw [wordAddr, mbxx_eq call wide, ← Nat.cast_mul, BitVec.ofInt_natCast, BitVec.ofInt_natCast,
    BitVec.add_assoc, ← BitVec.ofNat_add, Nat.add_comm]

end Picture

section Report
variable (report : Report)

theorem Report.asInt_eq {n : Nat} (inside : n < report.columns * report.rows) :
    asInt n = n := by
  have padded : report.columns ≤ report.stride := by
    rw [Call.stride]
    omega
  have fits := report.object
  have less : n < 2 ^ 31 := by
    calc n < report.columns * report.rows := inside
      _ ≤ report.stride * report.rows := Nat.mul_le_mul_right _ padded
      _ = report.rows * report.stride := Nat.mul_comm _ _
      _ < 2 ^ 31 := fits
  rw [asInt, BitVec.toInt_ofInt, Int.bmod_eq_of_le (by omega) (by omega)]

theorem Report.cell_eq {i j : Nat} (row : i < report.rows) (column : j < report.columns) :
    cell report.toCall i j = report.macroblock (report.columns * i + j) := by
  have wide : 0 < report.columns := Nat.zero_lt_of_lt column
  have inside : report.columns * i + j < report.columns * report.rows :=
    mul_add_le_mul row (Nat.succ_le_of_lt column)
  have width : report.mbx = report.columns := by
    rw [← mbx_toNat] at wide ⊢
    omega
  rw [cell, wordAddr_eq _ wide, Call.line, Call.macroblock, Call.qpAt, width, ← Nat.cast_mul,
    ← Nat.cast_add, report.asInt_eq inside, Nat.mul_add_div wide, Nat.div_eq_of_lt column,
    Nat.mul_add_mod, Nat.mod_eq_of_lt column, Nat.add_zero]

/-- A word of the buffer. -/
theorem Report.wordAddr_inside {i k : Nat} (row : i < report.rows)
    (word : k < (report.columns + 3) / 4) :
    report.qpReportAddr.toNat ≤ (wordAddr report.toCall i (4 * k)).toNat ∧
      (wordAddr report.toCall i (4 * k)).toNat + 4 ≤
        report.qpReportAddr.toNat + report.rows * report.stride := by
  have wide : 0 < report.columns := by omega
  have place : 4 * k / 4 * 4 = 4 * k := by omega
  have inside : report.stride * i + 4 * k + 4 ≤ report.rows * report.stride := by
    have padded : 4 * k + 4 ≤ report.stride := by
      rw [Call.stride]
      omega
    rw [Nat.mul_comm report.rows, Nat.add_assoc]
    exact mul_add_le_mul row padded
  have memory := report.in_memory
  rw [wordAddr_eq _ wide, place, BitVec.toNat_add, BitVec.toNat_ofNat,
    Nat.mod_eq_of_lt (by omega : report.stride * i + 4 * k < 2 ^ 32),
    Nat.mod_eq_of_lt (by omega)]
  omega

theorem saveQpReport_every_macroblock (report : Report) (lastQp : Fin 4 → BitVec 8)
    (file : List Line) :
    (saveQpReport report.toCall true lastQp file).lines =
        (if report.frameIdx = 0 then [] else file) ++
          (List.range (report.columns * report.rows)).map report.macroblock ∧
      ∀ address ∈ (saveQpReport report.toCall true lastQp file).reads,
        report.qpReportAddr.toNat ≤ address.toNat ∧
          address.toNat + 4 ≤ report.qpReportAddr.toNat + report.rows * report.stride := by
  constructor
  · rw [saveQpReport_lines, ← range_mul_flatMap]
    congr 1
    apply List.flatMap_congr
    intro i row
    apply List.map_congr_left
    intro j column
    exact report.cell_eq (List.mem_range.mp row) (List.mem_range.mp column)
  · intro address member
    rw [saveQpReport_reads] at member
    obtain ⟨i, row, member⟩ := List.mem_flatMap.mp member
    obtain ⟨k, word, rfl⟩ := List.mem_map.mp member
    exact report.wordAddr_inside (List.mem_range.mp row) (List.mem_range.mp word)

end Report

/-- Two rows of five macroblocks; the words of the buffer are their addresses. -/
def small : Report where
  qpReportAddr := 0x01020300#32
  picWidth := 80
  picHeight := 32
  frameIdx := 0
  load := id
  in_memory := by decide
  object := by decide

example : ((saveQpReport small.toCall true (fun _ => 0) []).lines.map fun line =>
      (line.index, line.qp)) =
    [(0, 1), (1, 2), (2, 3), (3, 0), (4, 1), (5, 1), (6, 2), (7, 3), (8, 8), (9, 1)] := by
  decide +kernel

end ImxTest.Vpu.QpReport
