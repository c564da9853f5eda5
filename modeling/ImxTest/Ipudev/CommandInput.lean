import ImxTest.Lib.CString
import Mathlib.Data.List.Nodup
import Mathlib.Data.List.Perm.Basic

/-!
# The options of the IPU test

`parse_cmd_input` sets defaults and then what the options ask for, in the order in which
`getopt` gives them.  Each option has a part of the settings for itself, but for the time
limit, whose branch runs on into that of the frame count.

The fields of `struct ipu_task` are integers here: its header is not in the repository.
-/

set_option autoImplicit false

namespace ImxTest.Ipudev

open ImxTest.Lib.CString

structure Pos where
  x : Int
  y : Int
  deriving Inhabited

structure Crop where
  pos : Pos
  w : Int
  h : Int
  deriving Inhabited

structure Deinterlace where
  enable : Int
  motion : Int
  deriving Inhabited

structure Input where
  width : Int
  height : Int
  format : Int
  crop : Crop
  deinterlace : Deinterlace
  deriving Inhabited

structure Alpha where
  mode : Int
  gvalue : Int
  deriving Inhabited

structure Colorkey where
  enable : Int
  value : Int
  deriving Inhabited

structure Overlay where
  width : Int
  height : Int
  format : Int
  crop : Crop
  alpha : Alpha
  colorkey : Colorkey
  deriving Inhabited

structure Output where
  width : Int
  height : Int
  format : Int
  rotate : Int
  crop : Crop
  deriving Inhabited

structure Task where
  priority : Int
  taskId : Int
  timeout : Int
  input : Input
  overlayEn : Int
  overlay : Overlay
  output : Output
  deriving Inhabited

structure TestHandle where
  task : Task
  fcount : Int
  loopCnt : Int
  showToFb : Int
  outfile : Fin 128 → Char
  deriving Inhabited

/-! ## `sscanf` -/

inductive Directive where
  | decimal | hexadecimal | char | comma
  deriving DecidableEq, Repr

def signOf (text : Text) : Int :=
  if text.head? = some '-' then -1 else 1

/-- What stands behind blanks and a sign. -/
def unsignedPart (text : Text) : Text :=
  match text with
  | '-' :: rest => rest
  | '+' :: rest => rest
  | _ => text

/-- The value that a directive stores, if it stores one, and the text that is left;
`none` where the text does not match. -/
def convert (directive : Directive) (text : Text) : Option (Option Int × Text) :=
  match directive, text with
  | .comma, ',' :: rest => some (none, rest)
  | .comma, _ => none
  | .char, c :: rest => some (some c.toNat, rest)
  | .char, [] => none
  | .decimal, _ =>
      let number := unsignedPart (text.dropWhile isSpace)
      let digits := number.takeWhile Char.isDigit
      if digits = [] then none
      else some (some (strtol 32 text), number.drop digits.length)
  | .hexadecimal, _ =>
      let sign := signOf (text.dropWhile isSpace)
      let number := significant (unsignedPart (text.dropWhile isSpace))
      let digits := number.takeWhile fun c => (digitOfHex c).isSome
      if digits = [] then none
      else some (some ((sign * min (hexValue 0 digits) (2 ^ 32 - 1)) % 2 ^ 32),
        number.drop digits.length)

/-- The values that are stored up to the first directive that does not match. -/
def sscanf : List Directive → Text → List Int
  | [], _ => []
  | directive :: directives, text =>
      match convert directive text with
      | none => []
      | some (value, rest) => value.toList ++ sscanf directives rest

/-- The variable of the value `k` after the scan. -/
def stored (values : List Int) (k : Nat) (before : Int) : Int :=
  (values[k]?).getD before

def numbers (count : Nat) : List Directive :=
  (List.range count).flatMap fun _ => [.comma, .decimal]

def fourChars : List Directive :=
  [.comma, .char, .char, .char, .char]

def v4l2Fourcc (a b c d : Int) : Int :=
  a + b * 2 ^ 8 + c * 2 ^ 16 + d * 2 ^ 24

/-- `fourcc` is cleared before the scan. -/
def fourccFrom (values : List Int) (first : Nat) : Int :=
  v4l2Fourcc (stored values first 0) (stored values (first + 1) 0) (stored values (first + 2) 0)
    (stored values (first + 3) 0)

def Crop.from (values : List Int) (first : Nat) (crop : Crop) : Crop :=
  ⟨⟨stored values first crop.pos.x, stored values (first + 1) crop.pos.y⟩,
    stored values (first + 2) crop.w, stored values (first + 3) crop.h⟩

/-- `"%d,%d,%c%c%c%c,%d,%d,%d,%d,%d,%d"`. -/
def Input.scan (text : Text) (input : Input) : Input :=
  let values := sscanf (.decimal :: numbers 1 ++ fourChars ++ numbers 6) text
  { width := stored values 0 input.width
    height := stored values 1 input.height
    format := fourccFrom values 2
    crop := input.crop.from values 6
    deinterlace := ⟨stored values 10 input.deinterlace.enable,
      stored values 11 input.deinterlace.motion⟩ }

def overlayDirectives : List Directive :=
  .decimal :: numbers 2 ++ fourChars ++ numbers 7 ++ [.comma, .hexadecimal]

/-- `"%d,%d,%d,%c%c%c%c,%d,%d,%d,%d,%d,%d,%d,%x"`, whose first number is `overlay_en`. -/
def Overlay.scan (text : Text) (overlay : Overlay) : Overlay :=
  let values := sscanf overlayDirectives text
  { width := stored values 1 overlay.width
    height := stored values 2 overlay.height
    format := fourccFrom values 3
    crop := overlay.crop.from values 7
    alpha := ⟨stored values 11 overlay.alpha.mode, stored values 12 overlay.alpha.gvalue⟩
    colorkey := ⟨stored values 13 overlay.colorkey.enable,
      stored values 14 overlay.colorkey.value⟩ }

/-- `"%d,%d,%c%c%c%c,%d,%d,%d,%d,%d"`. -/
def Output.scan (text : Text) (output : Output) : Output :=
  let values := sscanf (.decimal :: numbers 1 ++ fourChars ++ numbers 5) text
  { width := stored values 0 output.width
    height := stored values 1 output.height
    format := fourccFrom values 2
    rotate := stored values 6 output.rotate
    crop := output.crop.from values 7 }

/-- `memset` and `"%s"`; what does not fit goes behind the structure. -/
def outfileOf (text : Text) : Fin 128 → Char :=
  let word := (text.dropWhile isSpace).takeWhile fun c => !isSpace c
  fun i => (word[i.val]?).getD '\x00'

/-! ## The switch -/

inductive Letter where
  | p | d | t | c | l | i | o | O | s | f | h
  deriving DecidableEq, Repr

namespace TestHandle

def setTimeout (handle : TestHandle) (value : Int) : TestHandle :=
  { handle with task := { handle.task with timeout := value } }

def setFcount (handle : TestHandle) (value : Int) : TestHandle :=
  { handle with fcount := value }

/-- The branch of an option.  There is no `break` behind the time limit. -/
def set (handle : TestHandle) (letter : Letter) (optarg : Text) : TestHandle :=
  match letter with
  | .p => { handle with task := { handle.task with priority := strtol 32 optarg } }
  | .d => { handle with task := { handle.task with taskId := strtol 32 optarg } }
  | .t => (handle.setTimeout (strtol 32 optarg)).setFcount (strtol 32 optarg)
  | .c => handle.setFcount (strtol 32 optarg)
  | .l => { handle with loopCnt := strtol 32 optarg }
  | .i => { handle with task := { handle.task with input := handle.task.input.scan optarg } }
  | .o => { handle with task := { handle.task with
      overlayEn := stored (sscanf overlayDirectives optarg) 0 handle.task.overlayEn
      overlay := handle.task.overlay.scan optarg } }
  | .O => { handle with task := { handle.task with output := handle.task.output.scan optarg } }
  | .s => { handle with showToFb := strtol 32 optarg }
  | .f => { handle with outfile := outfileOf optarg }
  | .h => handle

def defaultFile : Text :=
  ['i', 'p', 'u', '0', '-', '1', 's', 't', '-', 'o', 'v', 'f', 'b']

/-- The default settings.  `memcpy` writes thirteen characters and no terminator. -/
def defaults (handle : TestHandle) : TestHandle where
  task :=
    { priority := 0
      taskId := 0
      timeout := 1000
      input :=
        { width := 320
          height := 240
          format := v4l2Fourcc 73 52 50 48
          crop := ⟨⟨0, 0⟩, 0, 0⟩
          deinterlace := ⟨0, 0⟩ }
      overlayEn := 0
      overlay :=
        { width := 320
          height := 240
          format := v4l2Fourcc 73 52 50 48
          crop := ⟨⟨0, 0⟩, 0, 0⟩
          alpha := ⟨0, 0⟩
          colorkey := ⟨0, 0x555555⟩ }
      output :=
        { width := 1024
          height := 768
          format := v4l2Fourcc 85 89 86 89
          rotate := 0
          crop := ⟨⟨0, 0⟩, 0, 0⟩ } }
  fcount := 50
  loopCnt := 1
  showToFb := 1
  outfile := strncpy handle.outfile defaultFile 13

end TestHandle

/-! ## `getopt` -/

namespace Letter

def char : Letter → Char
  | p => 'p' | d => 'd' | t => 't' | c => 'c' | l => 'l' | i => 'i'
  | o => 'o' | O => 'O' | s => 's' | f => 'f' | h => 'h'

def all : List Letter :=
  [p, d, t, c, l, i, o, O, s, f, h]

def ofChar (char : Char) : Option Letter :=
  all.find? fun letter => letter.char = char

end Letter

structure Choice where
  letter : Letter
  value : Text

/-- What `getopt` gives in turn, `none` for a letter that is not known or has no value.
`cluster` is what is left of the argument that is being read. -/
def getopt : Text → List Text → List (Option Choice)
  | [], [] => []
  | [], arg :: rest =>
      match arg with
      | ['-', '-'] => []
      | '-' :: first :: more => getopt (first :: more) rest
      | _ => getopt [] rest
  | first :: more, args =>
      match Letter.ofChar first with
      | none => none :: getopt more args
      | some .h => some ⟨.h, []⟩ :: getopt more args
      | some letter =>
          if more ≠ [] then some ⟨letter, more⟩ :: getopt [] args
          else
            match args with
            | value :: rest => some ⟨letter, value⟩ :: getopt [] rest
            | [] => [none]
termination_by cluster args => (args.length, cluster.length)

/-- The loop of `parse_cmd_input`, which returns at the first letter that is not known. -/
def switchLoop : List (Option Choice) → TestHandle → TestHandle
  | [], handle => handle
  | none :: _, handle => handle
  | some choice :: rest, handle => switchLoop rest (handle.set choice.letter choice.value)

/-- `argv` without the name of the program. -/
def parseCmdInput (argv : List Text) (handle : TestHandle) : TestHandle :=
  switchLoop (getopt [] argv) handle.defaults

/-! ## Options in any order -/

def Choice.args (choice : Choice) : List Text :=
  match choice.letter with
  | .h => [['-', 'h']]
  | letter => [['-', letter.char], choice.value]

inductive Part where
  | priority | taskId | timeout | fcount | loopCnt | input | overlay | output | showToFb | outfile
  deriving DecidableEq, Repr

def Letter.part : Letter → Option Part
  | .p => some .priority
  | .d => some .taskId
  | .t => some .timeout
  | .c => some .fcount
  | .l => some .loopCnt
  | .i => some .input
  | .o => some .overlay
  | .O => some .output
  | .s => some .showToFb
  | .f => some .outfile
  | .h => none

def Part.Same (a b : TestHandle) : Part → Prop
  | .priority => a.task.priority = b.task.priority
  | .taskId => a.task.taskId = b.task.taskId
  | .timeout => a.task.timeout = b.task.timeout
  | .fcount => a.fcount = b.fcount
  | .loopCnt => a.loopCnt = b.loopCnt
  | .input => a.task.input = b.task.input
  | .overlay => a.task.overlayEn = b.task.overlayEn ∧ a.task.overlay = b.task.overlay
  | .output => a.task.output = b.task.output
  | .showToFb => a.showToFb = b.showToFb
  | .outfile => a.outfile = b.outfile

structure Choices where
  list : List Choice
  distinct : (list.map Choice.letter).Nodup

def Choices.argv (choices : Choices) : List Text :=
  choices.list.flatMap Choice.args

/-- The order of the options does not matter, and each changes its own part alone. -/
structure OrderFree (choices : Choices) : Prop where
  anyOrder : ∀ other : Choices, other.list.Perm choices.list → ∀ handle : TestHandle,
    parseCmdInput other.argv handle = parseCmdInput choices.argv handle
  ownPart : ∀ choice ∈ choices.list, ∀ (handle : TestHandle) (part : Part),
    choice.letter.part ≠ some part → part.Same (handle.set choice.letter choice.value) handle

section Getopt

/-- An option is given with its value, which `-h` does not look at. -/
theorem getopt_args (choice : Choice) (rest : List Text) :
    ∃ value, getopt [] (choice.args ++ rest) = some ⟨choice.letter, value⟩ :: getopt [] rest ∧
      ∀ handle : TestHandle,
        handle.set choice.letter value = handle.set choice.letter choice.value := by
  obtain ⟨letter, value⟩ := choice
  cases letter with
  | h => exact ⟨[], by simp [Choice.args, getopt, Letter.ofChar, Letter.all, Letter.char],
      fun _ => rfl⟩
  | _ => exact ⟨value, by simp [Choice.args, getopt, Letter.ofChar, Letter.all, Letter.char],
      fun _ => rfl⟩

theorem parseCmdInput_argv (choices : Choices) (handle : TestHandle) :
    parseCmdInput choices.argv handle =
      choices.list.foldl (fun handle choice => handle.set choice.letter choice.value)
        handle.defaults := by
  have loop (list : List Choice) (handle : TestHandle) :
      switchLoop (getopt [] (list.flatMap Choice.args)) handle =
        list.foldl (fun handle choice => handle.set choice.letter choice.value) handle := by
    induction list generalizing handle with
    | nil => rw [List.flatMap_nil, getopt]; rfl
    | cons choice rest ih =>
        obtain ⟨value, given, same⟩ := getopt_args choice (rest.flatMap Choice.args)
        rw [List.flatMap_cons, given, switchLoop, same, List.foldl_cons, ih]
  exact loop choices.list handle.defaults

end Getopt

section Parts

/-- But for the time limit, the branch of an option is about its part. -/
theorem set_ownPart {letter : Letter} (other : letter ≠ .t) (handle : TestHandle) (optarg : Text)
    {part : Part} (foreign : letter.part ≠ some part) :
    part.Same (handle.set letter optarg) handle := by
  cases letter with
  | t => exact absurd rfl other
  | _ => cases part <;> first | rfl | exact ⟨rfl, rfl⟩ | exact absurd rfl foreign

theorem set_comm {first second : Letter} (firstOther : first ≠ .t) (secondOther : second ≠ .t)
    (distinct : first ≠ second) (handle : TestHandle) (v w : Text) :
    (handle.set first v).set second w = (handle.set second w).set first v := by
  cases first with
  | t => exact absurd rfl firstOther
  | _ =>
      cases second with
      | t => exact absurd rfl secondOther
      | _ => first | rfl | exact absurd rfl distinct

theorem perm_foldl {list other : List Choice} (perm : list.Perm other)
    (distinct : (list.map Choice.letter).Nodup) (noTimeout : ∀ choice ∈ list, choice.letter ≠ .t)
    (handle : TestHandle) :
    list.foldl (fun handle choice => handle.set choice.letter choice.value) handle =
      other.foldl (fun handle choice => handle.set choice.letter choice.value) handle := by
  refine perm.foldl_eq' (fun first firstIn second secondIn handle => ?_) handle
  by_cases same : first = second
  · rw [same]
  · have letters : first.letter ≠ second.letter :=
      fun equal => same (List.inj_on_of_nodup_map distinct firstIn secondIn equal)
    exact set_comm (noTimeout first firstIn) (noTimeout second secondIn) letters handle _ _

end Parts

/-- The options can come in any order, each for its own part, just when there is no time
limit among them. -/
theorem orderFree_iff (choices : Choices) :
    OrderFree choices ↔ ∀ choice ∈ choices.list, choice.letter ≠ .t := by
  constructor
  · rintro ⟨-, ownPart⟩ choice member isTimeout
    have kept := ownPart choice member
      ((default : TestHandle).setFcount (strtol 32 choice.value + 1)) .fcount
      (by rw [isTimeout]; exact nofun)
    rw [isTimeout] at kept
    have equal : strtol 32 choice.value = strtol 32 choice.value + 1 := kept
    omega
  · intro noTimeout
    refine ⟨fun other perm handle => ?_, fun choice member handle part foreign => ?_⟩
    · rw [parseCmdInput_argv, parseCmdInput_argv]
      exact (perm_foldl perm.symm choices.distinct noTimeout _).symm
    · exact set_ownPart (noTimeout choice member) handle choice.value foreign

def timeoutThenCount : Choices :=
  ⟨[⟨.t, ['5']⟩, ⟨.c, ['3']⟩], by decide⟩

def countThenTimeout : Choices :=
  ⟨[⟨.c, ['3']⟩, ⟨.t, ['5']⟩], by decide⟩

theorem timeout_sets_count : ¬ ∀ choices : Choices, OrderFree choices := by
  intro free
  have same := (free timeoutThenCount).anyOrder countThenTimeout (.swap _ _ _) default
  rw [parseCmdInput_argv, parseCmdInput_argv] at same
  have counts : strtol 32 ['5'] = strtol 32 ['3'] := congrArg TestHandle.fcount same
  exact absurd counts (by decide)

end ImxTest.Ipudev
