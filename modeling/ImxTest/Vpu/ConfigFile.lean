import ImxTest.Vpu.ParseOptions

/-!
# The configuration file and the instances

`parse_config_file` gives the options of a line to the instance that is being
configured, and an `end` line goes on to the next.  The number of instances is a
constant of the library.
-/

set_option autoImplicit false

namespace ImxTest.Vpu.ConfigFile

open ImxTest.Lib.CString
open ImxTest.Vpu.ParseOptions

/-- `instance` and `input_arg`, with the places of it that were used. -/
structure Instances where
  current : Nat
  inputArg : Nat → Settings
  used : List Nat

/-- A line as `parse_options` gets it. -/
def wanted (line : Text) : Text :=
  skipUnwanted (line.takeWhile (· ≠ '\x00'))

def parseLine (instances : Instances) (line : Text) : Instances :=
  let result := parseOptions (wanted line) (instances.inputArg instances.current)
  { current := if result.1 = 100 then instances.current + 1 else instances.current
    inputArg := fun i => if i = instances.current then result.2 else instances.inputArg i
    used := instances.used ++ [instances.current] }

section Loop
variable (maxNumInstance : Nat)

def parseLines : List Text → Instances → Instances
  | [], instances => instances
  | line :: rest, instances =>
      if instances.current > maxNumInstance then instances
      else parseLines rest (parseLine instances line)

def parseConfigFile (file : Option Text) (instances : Instances) : Int × Instances :=
  match file with
  | none => (-1, instances)
  | some text => (0, parseLines maxNumInstance (fgetsLines maxPath text) instances)

end Loop

/-- The options are read for the first instance on: with `-C` no other option has been
taken. -/
def atStart (inputArg : Nat → Settings) : Instances :=
  ⟨0, inputArg, []⟩

def isEnd (line : Text) : Bool :=
  strstr (wanted line) endText

/-! ## The lines -/

theorem parseLine_current (instances : Instances) (line : Text) :
    (parseLine instances line).current =
      instances.current + if isEnd line then 1 else 0 := by
  have result : (parseOptions (wanted line) (instances.inputArg instances.current)).1 =
      if isEnd line then 100 else 0 := by
    rw [parseOptions, isEnd]
    split
    · rfl
    · split <;> rfl
  rw [parseLine]
  dsimp only
  rw [result]
  cases isEnd line <;> rfl

theorem parseLines_used (maxNumInstance : Nat) (lines : List Text) (instances : Instances) :
    instances.used <+: (parseLines maxNumInstance lines instances).used := by
  induction lines generalizing instances with
  | nil => exact List.prefix_refl _
  | cons line rest ih =>
      rw [parseLines]
      split
      · exact List.prefix_refl _
      · exact (List.prefix_append instances.used [instances.current]).trans
          (ih (parseLine instances line))

/-- By induction on the lines: as long as the index is inside the table, one line adds
to it what the next ones find. -/
theorem parseLines_inside_iff {maxNumInstance : Nat} {lines : List Text}
    {instances : Instances} (bound : instances.current ≤ maxNumInstance) :
    (∀ i ∈ (parseLines maxNumInstance lines instances).used, i < maxNumInstance) ↔
      (∀ i ∈ instances.used, i < maxNumInstance) ∧
        (lines = [] ∨ instances.current + lines.dropLast.countP isEnd < maxNumInstance) := by
  induction lines generalizing instances with
  | nil => simp [parseLines]
  | cons line rest ih =>
      rw [parseLines, if_neg (Nat.not_lt.mpr bound)]
      by_cases full : instances.current = maxNumInstance
      · have here : instances.current ∈
            (parseLines maxNumInstance rest (parseLine instances line)).used := by
          apply (parseLines_used maxNumInstance rest (parseLine instances line)).subset
          exact List.mem_append_right _ List.mem_cons_self
        constructor
        · intro inside
          exact absurd (inside _ here) (by omega)
        · rintro ⟨-, empty | few⟩
          · exact absurd empty (List.cons_ne_nil _ _)
          · omega
      · have here : instances.current < maxNumInstance := Nat.lt_of_le_of_ne bound full
        have current := parseLine_current instances line
        have used : (parseLine instances line).used = instances.used ++ [instances.current] := rfl
        have step : (parseLine instances line).current ≤ maxNumInstance := by
          rw [current]
          split <;> omega
        rw [ih step, used, current, List.forall_mem_append, List.forall_mem_singleton]
        cases rest with
        | nil => simp [here]
        | cons next more =>
            rw [List.dropLast_cons_of_ne_nil (List.cons_ne_nil next more), List.countP_cons,
              Nat.add_right_comm, Nat.add_assoc]
            simp [here]

theorem parseConfigFile_inside_iff (maxNumInstance : Nat) (text : Text)
    (inputArg : Nat → Settings) :
    (∀ i ∈ (parseConfigFile maxNumInstance (some text) (atStart inputArg)).2.used,
        i < maxNumInstance) ↔
      fgetsLines maxPath text = [] ∨
        (fgetsLines maxPath text).dropLast.countP isEnd < maxNumInstance := by
  rw [parseConfigFile, parseLines_inside_iff (Nat.zero_le _), atStart, Nat.zero_add]
  simp

def endLines (count : Nat) : Text :=
  (List.replicate count (endText ++ ['\n'])).flatten

theorem fgetsLines_endLines (count : Nat) :
    fgetsLines maxPath (endLines count) = List.replicate count (endText ++ ['\n']) := by
  induction count with
  | zero => rfl
  | succ count ih =>
      have first : fgetsLines maxPath (endLines (count + 1)) =
          (endText ++ ['\n']) :: fgetsLines maxPath (endLines count) := rfl
      rw [first, ih, List.replicate_succ]

/-- With one `end` line more than there are instances the table is left, whatever their
number is. -/
theorem parseConfigFile_endLines_outside :
    ¬ ∃ maxNumInstance : Nat,
      ∀ i ∈ (parseConfigFile maxNumInstance (some (endLines (maxNumInstance + 1)))
        (atStart fun _ => filled 0 '\x00')).2.used, i < maxNumInstance := by
  rintro ⟨maxNumInstance, inside⟩
  have found : isEnd (endText ++ ['\n']) = true := by decide
  rw [parseConfigFile, parseLines_inside_iff (Nat.zero_le _), fgetsLines_endLines,
    List.dropLast_replicate, List.countP_replicate, if_pos found] at inside
  obtain ⟨-, empty | few⟩ := inside
  · exact absurd empty (List.cons_ne_nil _ _)
  · change 0 + maxNumInstance < maxNumInstance at few
    omega

end ImxTest.Vpu.ConfigFile
