import ImxTest.Lib.Watch

/-!
# Who owns a display buffer

A log of operations on the buffers says which of them the driver holds, which of
them the VPU must not write (their display flag is set) and which of them were
given back.  `Owned` is the single-owner rule for every operation in a log.
Showing a buffer while the driver keeps the last few is one window step.
-/

set_option autoImplicit false

namespace ImxTest.Vpu.Ownership

open ImxTest.Lib.Watch

inductive Op where
  /-- The VPU reports a picture for display and sets the buffer's display flag. -/
  | output (index : Int)
  | setRotatorOutput (index : Int)
  | qbuf (index : Int)
  | dqbuf (index : Int)
  | clrDispFlag (index : Int)
  /-- The buffer is chosen as the next rotation or motion JPEG target. -/
  | rotid (index : Int)
  deriving DecidableEq, Repr

def queuedStep (queued : List Int) : Op → List Int
  | .qbuf index => queued ++ [index]
  | .dqbuf index => queued.erase index
  | _ => queued

def queued (log : List Op) : List Int := log.foldl queuedStep []

def flaggedStep (flagged : List Int) : Op → List Int
  | .output index => index :: flagged
  | .clrDispFlag index => flagged.filter (· ≠ index)
  | _ => flagged

def flagged (log : List Op) : List Int := log.foldl flaggedStep []

def clearedStep (cleared : List Int) : Op → List Int
  | .qbuf index => cleared.filter (· ≠ index)
  | .clrDispFlag index => index :: cleared
  | _ => cleared

def cleared (log : List Op) : List Int := log.foldl clearedStep []

/-- What an operation must not do after the operations in `log`; `once` asks for
at most one clearing for each time a buffer is shown. -/
def OpSafe (once : Bool) (log : List Op) : Op → Prop
  | .output _ => True
  | .setRotatorOutput index => index ∉ queued log
  | .qbuf index => index ∉ queued log
  | .dqbuf _ => True
  | .clrDispFlag index => index ∉ queued log ∧ (once = true → index ∉ cleared log)
  | .rotid index => index ∉ queued log

/-- Every buffer has a single owner all along. -/
def Owned (once : Bool) (log : List Op) : Prop :=
  ∀ before op after, log = before ++ op :: after → OpSafe once before op

theorem owned_nil (once : Bool) : Owned once [] := everywhere_nil

theorem Owned.of_append {once : Bool} {log more : List Op} (owned : Owned once (log ++ more)) :
    Owned once log :=
  Everywhere.of_append owned

theorem owned_snoc {once : Bool} {log : List Op} {op : Op} :
    Owned once (log ++ [op]) ↔ Owned once log ∧ OpSafe once log op :=
  everywhere_snoc

/-! ## What one operation changes -/

theorem queued_append (log more : List Op) :
    queued (log ++ more) = more.foldl queuedStep (queued log) :=
  List.foldl_append

theorem flagged_append (log more : List Op) :
    flagged (log ++ more) = more.foldl flaggedStep (flagged log) :=
  List.foldl_append

@[simp]
theorem queued_snoc (log : List Op) (op : Op) :
    queued (log ++ [op]) = queuedStep (queued log) op := by
  simp [queued]

@[simp]
theorem flagged_snoc (log : List Op) (op : Op) :
    flagged (log ++ [op]) = flaggedStep (flagged log) op := by
  simp [flagged]

@[simp]
theorem cleared_snoc (log : List Op) (op : Op) :
    cleared (log ++ [op]) = clearedStep (cleared log) op := by
  simp [cleared]

theorem not_owned_clrDispFlag {once : Bool} {log : List Op} {index : Int}
    (mem : index ∈ queued log) : ¬ Owned once (log ++ [.clrDispFlag index]) := by
  intro owned
  exact (owned_snoc.mp owned).2.1 mem

theorem not_owned_rotid {once : Bool} {log : List Op} {index : Int}
    (mem : index ∈ queued log) : ¬ Owned once (log ++ [.rotid index]) := by
  intro owned
  exact (owned_snoc.mp owned).2 mem

/-- The log is owned and leaves exactly the window in the driver. -/
structure Shows (once : Bool) (window : List Int) (log : List Op) : Prop where
  owned : Owned once log
  queued : queued log = window

theorem shows_nil (once : Bool) : Shows once [] [] := ⟨owned_nil once, rfl⟩

theorem Shows.snoc {once : Bool} {window : List Int} {log : List Op} (op : Op)
    (shows : Shows once window log) (safe : OpSafe once log op) :
    Shows once (queuedStep window op) (log ++ [op]) :=
  ⟨owned_snoc.mpr ⟨shows.owned, safe⟩, by rw [queued_snoc, shows.queued]⟩

section Steps
variable {once : Bool} {window : List Int} {log : List Op}

theorem Shows.output (shows : Shows once window log) (index : Int) :
    Shows once window (log ++ [.output index]) :=
  shows.snoc (.output index) trivial

theorem Shows.setRotatorOutput (shows : Shows once window log) {index : Int}
    (fresh : index ∉ window) : Shows once window (log ++ [.setRotatorOutput index]) := by
  rw [← shows.queued] at fresh
  exact shows.snoc (.setRotatorOutput index) fresh

theorem Shows.rotid (shows : Shows once window log) {index : Int}
    (fresh : index ∉ window) : Shows once window (log ++ [.rotid index]) := by
  rw [← shows.queued] at fresh
  exact shows.snoc (.rotid index) fresh

theorem Shows.clrDispFlag (shows : Shows once window log) {index : Int}
    (fresh : index ∉ window) (single : once = true → index ∉ cleared log) :
    Shows once window (log ++ [.clrDispFlag index]) := by
  rw [← shows.queued] at fresh
  exact shows.snoc (.clrDispFlag index) ⟨fresh, single⟩

end Steps

/-! ## The display as a window

Both display modes keep the buffers shown last: once more than `kept` are in the
driver, each new one pushes the oldest out. -/

/-- The window after a buffer is shown, and the buffer that came back. -/
def windowPut (kept : Nat) (window : List Int) (index : Int) : List Int × Option Int :=
  match window ++ [index] with
  | [] => ([], none)
  | oldest :: rest => if rest.length ≥ kept then (rest, some oldest) else (oldest :: rest, none)

/-- The operations of one `v4l_put_data` with its de-queueing. -/
def putOps (kept : Nat) (window : List Int) (index : Int) : List Op :=
  .qbuf index :: (windowPut kept window index).2.toList.map Op.dqbuf

theorem windowPut_full (kept : Nat) (window : List Int) (index oldest : Int) (rest : List Int)
    (both : window ++ [index] = oldest :: rest) (full : rest.length ≥ kept) :
    windowPut kept window index = (rest, some oldest) := by
  rw [windowPut, both]
  exact if_pos full

theorem windowPut_room (kept : Nat) (window : List Int) (index : Int)
    (room : window.length < kept) :
    windowPut kept window index = (window ++ [index], none) := by
  unfold windowPut
  cases window with
  | nil =>
      simp only [List.length_nil] at room
      simp only [List.nil_append, List.length_nil]
      rw [if_neg (by omega)]
  | cons oldest rest =>
      simp only [List.length_cons] at room
      simp only [List.cons_append, List.length_append, List.length_singleton]
      rw [if_neg (by omega)]

/-- With or without a buffer that comes back, the buffers are the same. -/
theorem windowPut_append (kept : Nat) (window : List Int) (index : Int) :
    (windowPut kept window index).2.toList ++ (windowPut kept window index).1 =
      window ++ [index] := by
  unfold windowPut
  split
  · rename_i both
    simp at both
  · rename_i oldest rest both
    split <;> simp [both]

theorem windowPut_length (kept : Nat) (window : List Int) (index : Int)
    (short : window.length ≤ kept) : (windowPut kept window index).1.length ≤ kept := by
  unfold windowPut
  split
  · exact Nat.zero_le _
  · rename_i oldest rest both
    have length := congrArg List.length both
    simp only [List.length_append, List.length_cons, List.length_nil] at length
    split
    · simp only
      omega
    · simp only [List.length_cons]
      omega

section Put
variable {once : Bool} {kept : Nat} {window : List Int} {log : List Op} {index : Int}

theorem flagged_putOps : flagged (log ++ putOps kept window index) = flagged log := by
  unfold putOps
  cases (windowPut kept window index).2 with
  | none => simp [flaggedStep]
  | some oldest => simp [flagged, flaggedStep]

theorem cleared_putOps :
    cleared (log ++ putOps kept window index) = (cleared log).filter (· ≠ index) := by
  unfold putOps
  cases (windowPut kept window index).2 with
  | none => simp [clearedStep]
  | some oldest => simp [cleared, clearedStep]

theorem Shows.put (kept : Nat) (shows : Shows once window log) (fresh : index ∉ window) :
    Shows once (windowPut kept window index).1 (log ++ putOps kept window index) := by
  have queueing : Shows once (window ++ [index]) (log ++ [.qbuf index]) := by
    rw [← shows.queued] at fresh
    exact shows.snoc (.qbuf index) fresh
  have both := windowPut_append kept window index
  unfold putOps
  cases back : (windowPut kept window index).2 with
  | none =>
      rw [back, Option.toList_none, List.nil_append] at both
      rw [both]
      exact queueing
  | some oldest =>
      rw [back, Option.toList_some] at both
      rw [← both] at queueing
      have dequeueing := queueing.snoc (.dqbuf oldest) trivial
      simpa [queuedStep] using dequeueing

end Put

end ImxTest.Vpu.Ownership
