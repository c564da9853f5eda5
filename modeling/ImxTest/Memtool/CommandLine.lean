import ImxTest.Lib.CString
import ImxTest.Lib.Traced
import ImxTest.Memtool.Window

/-!
# The arguments of `memtool`

`parse_cmdline` goes through the arguments with `cur_arg` and leaves what they mean in
the globals.  The index of every argument that is given to a function of the library is
noted; behind the last argument `argv` holds `NULL`, and using that is a fault.
-/

set_option autoImplicit false

namespace ImxTest.Memtool.CommandLine

open ImxTest.Lib.CString
open ImxTest.Lib.Traced

structure Globals where
  gSize : Int
  gPaddr : Word
  gIsWrite : Int
  gValue : Word
  gCount : Word
  gIsReg : Int
  gModule : Option Text
  gReg : Option Text
  gField : Option Text
  gComp : Int
  gModuleMatch : Int
  deriving DecidableEq, Repr

def Globals.start : Globals where
  gSize := 4
  gPaddr := 0
  gIsWrite := 0
  gValue := 0
  gCount := 1
  gIsReg := 0
  gModule := none
  gReg := none
  gField := none
  gComp := 0
  gModuleMatch := 0

inductive Fault where
  | null
  deriving DecidableEq, Repr

abbrev Parser (α : Type) : Type := Program Globals Nat Fault α

/-- A `long` has 32 bits. -/
def number (text : Text) : Word :=
  BitVec.ofNat 32 (strtoul 32 text)

def memtoolText : Text := ['m', 'e', 'm', 't', 'o', 'o', 'l']

def compText : Text := ['-', 'c', 'o', 'm', 'p']

inductive Size where
  | byte
  | half
  | word
  deriving DecidableEq, Repr

def Size.text : Size → Text
  | .byte => ['-', '8']
  | .half => ['-', '1', '6']
  | .word => ['-', '3', '2']

def Size.bytes : Size → Int
  | .byte => 1
  | .half => 2
  | .word => 4

section Parse
variable (argv : List Text)

/-- `argv[i]` as an argument of a library function. -/
def fetch (i : Nat) : Parser Text := do
  note fun _ => i
  match argv[i]? with
  | some text => pure text
  | none => quit .null

/-- One comparison with an option after the other; the result is `cur_arg`. -/
def sizeOption : List Size → Parser Nat
  | [] => pure 1
  | size :: rest => do
      let arg ← fetch argv 1
      if arg = size.text then do
        change fun globals => { globals with gSize := size.bytes }
        pure 2
      else sizeOption rest

def compOption (cur : Nat) : Parser Nat := do
  let arg ← fetch argv cur
  if arg = compText then do
    change fun globals => { globals with gComp := 1 }
    pure (cur + 1)
  else pure cur

/-- The loop over the arguments that a shell adds for completion; there are at most as
many turns as arguments. -/
def skipMemtool : Nat → Nat → Parser Nat
  | 0, cur => pure cur
  | turns + 1, cur =>
      if cur < argv.length then do
        let arg ← fetch argv cur
        if strstr arg memtoolText then do
          change fun globals => { globals with gComp := 1 }
          skipMemtool turns (cur + 1)
        else do
          let arg ← fetch argv cur
          if arg.length = 0 then skipMemtool turns (cur + 1) else pure cur
      else pure cur

/-- What is left of a string that is cut at its first `c`. -/
def cut (c : Char) (text : Text) : Text :=
  text.takeWhile (· ≠ c)

/-- The last of the three parts may be followed by a value. -/
def assignValue (text : Text) (set : Text → Globals → Globals) (globals : Globals) : Globals :=
  match behind '=' text with
  | some equal => { set (cut '=' text) globals with gIsWrite := 1, gValue := number equal }
  | none => set text globals

/-- `module.reg.field=value`. -/
def extendCommand (arg : Text) (globals : Globals) : Globals :=
  let globals := { globals with gIsReg := 1, gModule := some arg }
  match behind '.' arg with
  | none => globals
  | some str =>
      let globals := { globals with gModule := some (cut '.' arg), gModuleMatch := 1 }
      match behind '.' str with
      | some field =>
          assignValue field (fun text globals => { globals with gField := some text })
            { globals with gReg := some (cut '.' str) }
      | none =>
          assignValue str (fun text globals => { globals with gReg := some text })
            { globals with gField := none }

/-- A number that is given behind the address: the value, or the count of a read. -/
def numberArgument (cur : Nat) : Parser Int := do
  let arg ← fetch argv cur
  let isWrite ← ask Globals.gIsWrite
  if isWrite ≠ 0 then do
    change fun globals => { globals with gValue := number arg }
    pure 0
  else do
    change fun globals => { globals with gCount := number arg }
    pure 0

def valueArgument (cur : Nat) : Parser Int := do
  let arg ← fetch argv cur
  change fun globals => { globals with gValue := number arg }
  pure 0

/-- What follows the argument with the address; `cur` is the next one. -/
def nextArgument (cur : Nat) : Parser Int :=
  if cur ≥ argv.length then pure (-1)
  else do
    let arg ← fetch argv cur
    if arg.head? = some '=' then do
      change fun globals => { globals with gIsWrite := 1 }
      let arg ← fetch argv cur
      if arg.length > 1 then do
        change fun globals => { globals with gValue := number arg.tail }
        pure 0
      else if cur + 1 ≥ argv.length then pure (-1)
      else valueArgument argv (cur + 1)
    else numberArgument argv cur

/-- The part from the test for `=` in the argument with the address. -/
def afterAddress (cur : Nat) : Parser Int := do
  let arg ← fetch argv cur
  match behind '=' arg with
  | some value =>
      change fun globals => { globals with gIsWrite := 1 }
      if value.length > 0 then do
        change fun globals => { globals with gValue := number value }
        pure 0
      else nextArgument argv (cur + 1)
  | none => nextArgument argv (cur + 1)

def memoryCommand (cur : Nat) : Parser Int := do
  let isReg ← ask Globals.gIsReg
  if isReg = 0 then do
    let arg ← fetch argv cur
    change fun globals => { globals with gPaddr := number arg }
    if number arg = 0 then pure (-1) else afterAddress argv cur
  else afterAddress argv cur

def command (cur : Nat) : Parser Int := do
  let gComp ← ask Globals.gComp
  if cur ≥ argv.length then pure (if gComp ≠ 0 then 0 else -1)
  else do
    let arg ← fetch argv cur
    if gComp ≠ 0 ∨ (behind '.' arg).isSome then do
      change (extendCommand arg)
      pure 0
    else memoryCommand argv cur

def parseCmdline : Parser Int :=
  if argv.length < 2 then pure (-1)
  else do
    let cur ← sizeOption argv [.byte, .half, .word]
    let cur ← compOption argv cur
    let cur ← skipMemtool argv argv.length cur
    command argv cur

end Parse

/-! ## Every argument that is used exists -/

/-- Only arguments that exist are used, and the call returns -1 or 0. -/
def Safe (argv : List Text) : Prop :=
  (∀ i ∈ (parseCmdline argv .start).log, i < argv.length) ∧
    ∃ code, (parseCmdline argv .start).value = .ok code ∧ (code = -1 ∨ code = 0)

def IsCode (code : Int) : Prop :=
  code = -1 ∨ code = 0

section Used
variable {argv : List Text} {cur : Nat}

theorem fetch_returns {i : Nat} (inside : i < argv.length) :
    Returns (· < argv.length) (fun text => argv[i]? = some text) (fetch argv i) := by
  have here : argv[i]? = some (argv[i]) := List.getElem?_eq_getElem inside
  intro globals
  refine ⟨?_, argv[i], ?_, here⟩
  · intro seen member
    simp only [fetch, bind_apply, note_apply, andThen_ok, here, pure_apply] at member
    rw [List.mem_singleton.mp member]
    exact inside
  · simp only [fetch, bind_apply, note_apply, andThen_ok, here, pure_apply]

theorem sizeOption_returns (inside : 1 < argv.length) (sizes : List Size) :
    Returns (· < argv.length)
      (fun cur => cur = 1 ∨ cur = 2 ∧ ∃ size : Size, argv[1]? = some size.text)
      (sizeOption argv sizes) := by
  induction sizes with
  | nil => exact Returns.pure (.inl rfl)
  | cons size rest ih =>
      apply Returns.bind (fetch_returns inside)
      intro arg here
      apply Returns.ite
      · intro same
        apply Returns.bind (Returns.change _)
        intro _ _
        exact Returns.pure (.inr ⟨rfl, size, by rw [here, same]⟩)
      · intro _
        exact ih

theorem compOption_returns (inside : cur < argv.length) :
    Returns (· < argv.length) (fun _ => True) (compOption argv cur) := by
  apply Returns.bind (fetch_returns inside)
  intro arg _
  apply Returns.ite
  · intro _
    apply Returns.bind (Returns.change _)
    intro _ _
    exact Returns.pure trivial
  · intro _
    exact Returns.pure trivial

/-- By induction on the turns: an argument is used after its index was compared. -/
theorem skipMemtool_returns (turns cur : Nat) :
    Returns (· < argv.length) (fun _ => True) (skipMemtool argv turns cur) := by
  induction turns generalizing cur with
  | zero => exact Returns.pure trivial
  | succ turns ih =>
      apply Returns.ite
      · intro inside
        apply Returns.bind (fetch_returns inside)
        intro arg _
        apply Returns.ite
        · intro _
          apply Returns.bind (Returns.change _)
          intro _ _
          exact ih (cur + 1)
        · intro _
          apply Returns.bind (fetch_returns inside)
          intro arg _
          apply Returns.ite
          · intro _
            exact ih (cur + 1)
          · intro _
            exact Returns.pure trivial
      · intro _
        exact Returns.pure trivial

theorem valueArgument_returns (inside : cur < argv.length) :
    Returns (· < argv.length) IsCode (valueArgument argv cur) := by
  apply Returns.bind (fetch_returns inside)
  intro arg _
  apply Returns.bind (Returns.change _)
  intro _ _
  exact Returns.pure (.inr rfl)

theorem numberArgument_returns (inside : cur < argv.length) :
    Returns (· < argv.length) IsCode (numberArgument argv cur) := by
  apply Returns.bind (fetch_returns inside)
  intro arg _
  apply Returns.bind (Returns.ask _)
  intro isWrite _
  apply Returns.ite
  · intro _
    apply Returns.bind (Returns.change _)
    intro _ _
    exact Returns.pure (.inr rfl)
  · intro _
    apply Returns.bind (Returns.change _)
    intro _ _
    exact Returns.pure (.inr rfl)

theorem nextArgument_returns : Returns (· < argv.length) IsCode (nextArgument argv cur) := by
  apply Returns.ite
  · intro _
    exact Returns.pure (.inl rfl)
  · intro below
    have inside : cur < argv.length := Nat.lt_of_not_le below
    apply Returns.bind (fetch_returns inside)
    intro arg _
    apply Returns.ite
    · intro _
      apply Returns.bind (Returns.change _)
      intro _ _
      apply Returns.bind (fetch_returns inside)
      intro arg _
      apply Returns.ite
      · intro _
        apply Returns.bind (Returns.change _)
        intro _ _
        exact Returns.pure (.inr rfl)
      · intro _
        apply Returns.ite
        · intro _
          exact Returns.pure (.inl rfl)
        · intro below
          exact valueArgument_returns (Nat.lt_of_not_le below)
    · intro _
      exact numberArgument_returns inside

theorem afterAddress_returns (inside : cur < argv.length) :
    Returns (· < argv.length) IsCode (afterAddress argv cur) := by
  apply Returns.bind (fetch_returns inside)
  intro arg _
  cases behind '=' arg with
  | none => exact nextArgument_returns
  | some value =>
      apply Returns.bind (Returns.change _)
      intro _ _
      apply Returns.ite
      · intro _
        apply Returns.bind (Returns.change _)
        intro _ _
        exact Returns.pure (.inr rfl)
      · intro _
        exact nextArgument_returns

theorem memoryCommand_returns (inside : cur < argv.length) :
    Returns (· < argv.length) IsCode (memoryCommand argv cur) := by
  apply Returns.bind (Returns.ask _)
  intro isReg _
  apply Returns.ite
  · intro _
    apply Returns.bind (fetch_returns inside)
    intro arg _
    apply Returns.bind (Returns.change _)
    intro _ _
    apply Returns.ite
    · intro _
      exact Returns.pure (.inl rfl)
    · intro _
      exact afterAddress_returns inside
  · intro _
    exact afterAddress_returns inside

theorem command_returns : Returns (· < argv.length) IsCode (command argv cur) := by
  apply Returns.bind (Returns.ask _)
  intro gComp _
  apply Returns.ite
  · intro _
    apply Returns.pure
    split
    · exact .inr rfl
    · exact .inl rfl
  · intro below
    have inside : cur < argv.length := Nat.lt_of_not_le below
    apply Returns.bind (fetch_returns inside)
    intro arg _
    apply Returns.ite
    · intro _
      apply Returns.bind (Returns.change _)
      intro _ _
      exact Returns.pure (.inr rfl)
    · intro _
      exact memoryCommand_returns inside

/-- The only use of an argument before its index is compared is the one for `-comp`. -/
theorem parseCmdline_returns
    (more : ¬ (argv.length = 2 ∧ ∃ size : Size, argv[1]? = some size.text)) :
    Returns (· < argv.length) IsCode (parseCmdline argv) := by
  apply Returns.ite
  · intro _
    exact Returns.pure (.inl rfl)
  · intro enough
    apply Returns.bind (sizeOption_returns (by omega) _)
    intro cur place
    have inside : cur < argv.length := by
      obtain rfl | ⟨rfl, option⟩ := place
      · omega
      · by_contra last
        exact more ⟨by omega, option⟩
    apply Returns.bind (compOption_returns inside)
    intro cur _
    apply Returns.bind (skipMemtool_returns _ cur)
    intro cur _
    exact command_returns

end Used

/-- An option for the size that nothing follows. -/
theorem parseCmdline_option_only (program : Text) (size : Size) :
    (parseCmdline [program, size.text] .start).value = .error .null := by
  cases size <;> rfl

theorem parseCmdline_safe_iff (argv : List Text) :
    Safe argv ↔ ¬ (argv.length = 2 ∧ ∃ size : Size, argv[1]? = some size.text) := by
  constructor
  · rintro ⟨-, code, given, -⟩ ⟨length, size, option⟩
    obtain ⟨program, last, rfl⟩ := List.length_eq_two.mp length
    obtain rfl : last = size.text := Option.some.inj option
    rw [parseCmdline_option_only] at given
    cases given
  · intro more
    exact parseCmdline_returns more .start

theorem parseCmdline_size_alone_unsafe : ¬ Safe [memtoolText, Size.half.text] := by
  rintro ⟨-, code, given, -⟩
  rw [parseCmdline_option_only] at given
  cases given

/-! ## Four ways to write -/

/-- Where blanks stand around the `=`. -/
inductive Spelling where
  | joined
  | behindEqual
  | beforeEqual
  | apart
  deriving DecidableEq, Repr

def Spelling.args (address value : Text) : Spelling → List Text
  | .joined => [address ++ '=' :: value]
  | .behindEqual => [address ++ ['='], value]
  | .beforeEqual => [address, '=' :: value]
  | .apart => [address, ['='], value]

/-- The command line with the name of the program and an optional size. -/
def commandLine (program : Text) (size : Option Size) (rest : List Text) : List Text :=
  program :: (size.toList.map Size.text ++ rest)

section Runs
variable {argv : List Text} {cur : Nat} {globals after : Globals} {arg : Text} {code : Int}

theorem fetch_gives {i : Nat} (here : argv[i]? = some arg) :
    Gives (fetch argv i) globals arg globals := by
  refine ⟨[i], ?_⟩
  simp only [fetch, bind_apply, note_apply, andThen_ok, here, pure_apply, List.append_nil]

theorem Size.text_injective {first second : Size} (same : first.text = second.text) :
    first = second := by
  cases first <;> cases second <;> first | rfl | exact absurd same (by decide)

theorem sizeOption_gives {size : Size} (here : argv[1]? = some size.text) {sizes : List Size}
    (member : size ∈ sizes) :
    Gives (sizeOption argv sizes) globals 2 { globals with gSize := size.bytes } := by
  induction sizes with
  | nil => cases member
  | cons first rest ih =>
      apply Gives.bind (fetch_gives here)
      by_cases same : size.text = first.text
      · obtain rfl := Size.text_injective same
        rw [if_pos rfl]
        apply Gives.bind (Gives.change _)
        exact Gives.pure 2
      · rw [if_neg same]
        apply ih
        obtain rfl | later := List.mem_cons.mp member
        · exact absurd rfl same
        · exact later

theorem sizeOption_none (here : argv[1]? = some arg) (other : ∀ size : Size, arg ≠ size.text)
    (sizes : List Size) : Gives (sizeOption argv sizes) globals 1 globals := by
  induction sizes with
  | nil => exact Gives.pure 1
  | cons size rest ih =>
      apply Gives.bind (fetch_gives here)
      rw [if_neg (other size)]
      exact ih

theorem compOption_gives (here : argv[cur]? = some arg) (other : arg ≠ compText) :
    Gives (compOption argv cur) globals cur globals := by
  apply Gives.bind (fetch_gives here)
  rw [if_neg other]
  exact Gives.pure cur

theorem skipMemtool_gives (here : argv[cur]? = some arg) (other : strstr arg memtoolText = false)
    (nonempty : arg ≠ []) (turns : Nat) :
    Gives (skipMemtool argv (turns + 1) cur) globals cur globals := by
  have inside : cur < argv.length := (List.getElem?_eq_some_iff.mp here).1
  rw [skipMemtool, if_pos inside]
  apply Gives.bind (fetch_gives here)
  rw [if_neg (by rw [other]; exact Bool.false_ne_true)]
  apply Gives.bind (fetch_gives here)
  rw [if_neg (by simpa using nonempty)]
  exact Gives.pure cur

theorem command_gives (here : argv[cur]? = some arg) (comp : globals.gComp = 0)
    (reg : globals.gIsReg = 0) (plain : behind '.' arg = none) (nonzero : number arg ≠ 0)
    (rest : Gives (afterAddress argv cur) { globals with gPaddr := number arg } code after) :
    Gives (command argv cur) globals code after := by
  have inside : ¬ cur ≥ argv.length := Nat.not_le.mpr (List.getElem?_eq_some_iff.mp here).1
  apply Gives.bind (Gives.ask Globals.gComp)
  rw [if_neg inside]
  apply Gives.bind (fetch_gives here)
  rw [if_neg (by simp [comp, plain])]
  apply Gives.bind (Gives.ask Globals.gIsReg)
  rw [if_pos reg]
  apply Gives.bind (fetch_gives here)
  apply Gives.bind (Gives.change _)
  rw [if_neg nonzero]
  exact rest

/-- The globals before the address is looked at. -/
def sized (size : Option Size) : Globals :=
  { Globals.start with gSize := (size.map Size.bytes).getD 4 }

/-- The first argument behind the options is not taken for anything but an address. -/
structure Plain (arg : Text) : Prop where
  nonempty : arg ≠ []
  option : arg.head? ≠ some '-'
  memtool : 'm' ∉ arg
  register : '.' ∉ arg

theorem behind_eq_none {c : Char} {text : Text} (absent : c ∉ text) : behind c text = none := by
  induction text with
  | nil => rfl
  | cons d rest ih =>
      have other : d ≠ c := fun same => absent (by rw [same]; exact List.mem_cons_self)
      rw [behind, if_neg other]
      exact ih fun member => absent (List.mem_cons_of_mem _ member)

theorem Plain.not_memtool (plain : Plain arg) : strstr arg memtoolText = false := by
  apply Bool.eq_false_of_not_eq_true
  intro found
  have inside := strstr_eq_true.mp found
  exact plain.memtool (inside.subset (by decide))

theorem getElem?_of_drop {rest : List Text} (place : argv.drop cur = arg :: rest) :
    argv[cur]? = some arg := by
  rw [← List.head?_drop, place]
  rfl

/-- With the options read, `cur_arg` is at the address. -/
theorem parseCmdline_gives {program : Text} {size : Option Size} {rest : List Text}
    (plain : Plain arg) (nonzero : number arg ≠ 0)
    (later : ∀ cur, (commandLine program size (arg :: rest)).drop cur = arg :: rest →
      Gives (afterAddress (commandLine program size (arg :: rest)) cur)
        { sized size with gPaddr := number arg } code after) :
    Gives (parseCmdline (commandLine program size (arg :: rest))) .start code after := by
  have notOption : ∀ size : Size, arg ≠ size.text := by
    intro size same
    apply plain.option
    rw [same]
    cases size <;> rfl
  have notComp : arg ≠ compText := by
    intro same
    apply plain.option
    rw [same]
    rfl
  have finish : ∀ cur, (commandLine program size (arg :: rest)).drop cur = arg :: rest →
      Gives (compOption (commandLine program size (arg :: rest)) cur >>= fun cur =>
          skipMemtool (commandLine program size (arg :: rest))
            (commandLine program size (arg :: rest)).length cur >>= fun cur =>
          command (commandLine program size (arg :: rest)) cur)
        (sized size) code after := by
    intro cur place
    have here := getElem?_of_drop place
    apply Gives.bind (compOption_gives here notComp)
    apply Gives.bind (skipMemtool_gives here plain.not_memtool plain.nonempty _)
    exact command_gives here rfl rfl (behind_eq_none plain.register) nonzero (later cur place)
  have enough : ¬ (commandLine program size (arg :: rest)).length < 2 := by
    cases size <;> simp [commandLine]
  rw [parseCmdline, if_neg enough]
  cases size with
  | none =>
      apply Gives.bind (sizeOption_none rfl notOption _)
      exact finish 1 rfl
  | some size =>
      apply Gives.bind (@sizeOption_gives _ _ size rfl _ (by cases size <;> decide))
      exact finish 2 rfl

end Runs

section Spellings
variable {address value : Text}

structure IsAddress (address : Text) : Prop where
  hex : IsHex address
  nonzero : 0 < hexValue 0 address
  fits : hexValue 0 address < 2 ^ 32

structure IsValue (value : Text) : Prop where
  hex : IsHex value
  nonempty : value ≠ []

theorem IsAddress.nonempty (given : IsAddress address) : address ≠ [] := by
  rintro rfl
  exact absurd given.nonzero (by decide)

theorem equal_stops (rest : Text) :
    ∀ c ∈ ('=' :: rest).head?, digitOfHex c = none ∧ c ≠ 'x' ∧ c ≠ 'X' := by
  intro c head
  cases Option.some.inj head
  decide

theorem IsAddress.number_eq (given : IsAddress address) {rest : Text}
    (stops : ∀ c ∈ rest.head?, digitOfHex c = none ∧ c ≠ 'x' ∧ c ≠ 'X') :
    number (address ++ rest) = BitVec.ofNat 32 (hexValue 0 address) := by
  rw [number, strtoul_append given.nonempty given.hex stops, if_neg (Nat.not_le.mpr given.fits)]

theorem IsAddress.ofNat_ne_zero (given : IsAddress address) :
    BitVec.ofNat 32 (hexValue 0 address) ≠ 0 := by
  intro zero
  have numbers := congrArg BitVec.toNat zero
  rw [BitVec.toNat_ofNat, Nat.mod_eq_of_lt given.fits] at numbers
  exact given.nonzero.ne' numbers

theorem IsAddress.plain (given : IsAddress address) {rest : Text} (memtool : 'm' ∉ rest)
    (register : '.' ∉ rest) : Plain (address ++ rest) where
  nonempty := by simp [given.nonempty]
  option := by
    obtain ⟨first, more, rfl⟩ := List.exists_cons_of_ne_nil given.nonempty
    intro minus
    obtain rfl : first = '-' := Option.some.inj minus
    exact given.hex.not_mem (by decide) List.mem_cons_self
  memtool := by
    intro member
    obtain member | member := List.mem_append.mp member
    · exact given.hex.not_mem (by decide) member
    · exact memtool member
  register := by
    intro member
    obtain member | member := List.mem_append.mp member
    · exact given.hex.not_mem (by decide) member
    · exact register member

def written (size : Option Size) (address value : Text) : Globals :=
  { sized size with
    gPaddr := BitVec.ofNat 32 (hexValue 0 address)
    gIsWrite := 1
    gValue := number value }

section After
variable {argv rest : List Text} {cur : Nat} {globals : Globals}

theorem drop_succ {first : Text} (place : argv.drop cur = first :: rest) :
    argv.drop (cur + 1) = rest := by
  rw [← List.drop_drop, place]
  rfl

theorem lt_length {first : Text} (place : argv.drop cur = first :: rest) :
    ¬ cur ≥ argv.length := by
  intro below
  rw [List.drop_of_length_le below] at place
  cases place

/-- `<address>=<value>`. -/
theorem afterAddress_joined (given : IsAddress address) (digits : IsValue value)
    (place : argv.drop cur = [address ++ '=' :: value]) :
    Gives (afterAddress argv cur) globals 0
      { globals with gIsWrite := 1, gValue := number value } := by
  apply Gives.bind (fetch_gives (getElem?_of_drop place))
  rw [behind_append (given.hex.not_mem (by decide))]
  apply Gives.bind (Gives.change _)
  rw [if_pos (List.length_pos_iff.mpr digits.nonempty)]
  apply Gives.bind (Gives.change _)
  exact Gives.pure 0

/-- `<address>= <value>`. -/
theorem afterAddress_behindEqual (given : IsAddress address) (digits : IsValue value)
    (place : argv.drop cur = [address ++ ['='], value]) :
    Gives (afterAddress argv cur) globals 0
      { globals with gIsWrite := 1, gValue := number value } := by
  have second := drop_succ place
  have other : value.head? ≠ some '=' := by
    intro head
    exact digits.hex.not_mem (by decide) (List.mem_of_mem_head? head)
  apply Gives.bind (fetch_gives (getElem?_of_drop place))
  rw [behind_append (given.hex.not_mem (by decide))]
  apply Gives.bind (Gives.change _)
  rw [if_neg (by decide), nextArgument, if_neg (lt_length second)]
  apply Gives.bind (fetch_gives (getElem?_of_drop second))
  rw [if_neg other]
  apply Gives.bind (fetch_gives (getElem?_of_drop second))
  apply Gives.bind (Gives.ask _)
  rw [if_pos (show (1 : Int) ≠ 0 by decide)]
  apply Gives.bind (Gives.change _)
  exact Gives.pure 0

theorem afterAddress_alone {code : Int} {after : Globals} (given : IsAddress address)
    (place : argv.drop cur = address :: rest)
    (run : Gives (nextArgument argv (cur + 1)) globals code after) :
    Gives (afterAddress argv cur) globals code after := by
  apply Gives.bind (fetch_gives (getElem?_of_drop place))
  rw [behind_eq_none (given.hex.not_mem (by decide))]
  exact run

/-- `<address> =<value>`. -/
theorem afterAddress_beforeEqual (given : IsAddress address) (digits : IsValue value)
    (place : argv.drop cur = [address, '=' :: value]) :
    Gives (afterAddress argv cur) globals 0
      { globals with gIsWrite := 1, gValue := number value } := by
  have second := drop_succ place
  have long : ('=' :: value).length > 1 :=
    Nat.succ_lt_succ (List.length_pos_iff.mpr digits.nonempty)
  apply afterAddress_alone given place
  rw [nextArgument, if_neg (lt_length second)]
  apply Gives.bind (fetch_gives (getElem?_of_drop second))
  rw [if_pos List.head?_cons]
  apply Gives.bind (Gives.change _)
  apply Gives.bind (fetch_gives (getElem?_of_drop second))
  rw [if_pos long]
  apply Gives.bind (Gives.change _)
  exact Gives.pure 0

/-- `<address> = <value>`. -/
theorem afterAddress_apart (given : IsAddress address)
    (place : argv.drop cur = [address, ['='], value]) :
    Gives (afterAddress argv cur) globals 0
      { globals with gIsWrite := 1, gValue := number value } := by
  have second := drop_succ place
  have third := drop_succ second
  apply afterAddress_alone given place
  rw [nextArgument, if_neg (lt_length second)]
  apply Gives.bind (fetch_gives (getElem?_of_drop second))
  rw [if_pos List.head?_cons]
  apply Gives.bind (Gives.change _)
  apply Gives.bind (fetch_gives (getElem?_of_drop second))
  rw [if_neg (by decide), if_neg (lt_length third)]
  apply Gives.bind (fetch_gives (getElem?_of_drop third))
  apply Gives.bind (Gives.change _)
  exact Gives.pure 0

end After

theorem parseCmdline_spelling (program : Text) (size : Option Size) (given : IsAddress address)
    (digits : IsValue value) (spelling : Spelling) :
    Gives (parseCmdline (commandLine program size (spelling.args address value))) .start 0
      (written size address value) := by
  have alone : number address = BitVec.ofNat 32 (hexValue 0 address) := by
    have whole := @IsAddress.number_eq _ given [] (by simp)
    rwa [List.append_nil] at whole
  have plain : Plain address := by
    have whole := @IsAddress.plain _ given [] (by simp) (by simp)
    rwa [List.append_nil] at whole
  have equal : ∀ rest, number (address ++ '=' :: rest) =
      BitVec.ofNat 32 (hexValue 0 address) := fun rest => given.number_eq (equal_stops rest)
  have plainEqual : ∀ rest, IsHex rest → Plain (address ++ '=' :: rest) := by
    intro rest hex
    have letter : 'm' ∉ rest := hex.not_mem (by decide)
    have dot : '.' ∉ rest := hex.not_mem (by decide)
    apply given.plain
    · simp [letter]
    · simp [dot]
  cases spelling with
  | joined =>
      apply parseCmdline_gives (plainEqual value digits.hex)
      · rw [equal]
        exact given.ofNat_ne_zero
      · intro cur place
        rw [equal]
        exact afterAddress_joined given digits place
  | behindEqual =>
      apply parseCmdline_gives (plainEqual [] (fun _ member => nomatch member))
      · rw [equal]
        exact given.ofNat_ne_zero
      · intro cur place
        rw [equal]
        exact afterAddress_behindEqual given digits place
  | beforeEqual =>
      apply parseCmdline_gives plain
      · rw [alone]
        exact given.ofNat_ne_zero
      · intro cur place
        rw [alone]
        exact afterAddress_beforeEqual given digits place
  | apart =>
      apply parseCmdline_gives plain
      · rw [alone]
        exact given.ofNat_ne_zero
      · intro cur place
        rw [alone]
        exact afterAddress_apart given place

/-- The four spellings give 0 and the same globals. -/
theorem parseCmdline_spellings_agree (program : Text) (size : Option Size)
    (given : IsAddress address) (digits : IsValue value) :
    ∃ globals : Globals,
      (∀ spelling : Spelling,
        Gives (parseCmdline (commandLine program size (spelling.args address value))) .start 0
          globals) ∧
        globals.gPaddr = BitVec.ofNat 32 (hexValue 0 address) ∧ globals.gValue = number value ∧
        globals.gIsWrite = 1 ∧ globals.gSize = (size.map Size.bytes).getD 4 :=
  ⟨written size address value, parseCmdline_spelling program size given digits, rfl, rfl, rfl, rfl⟩

end Spellings

theorem parseCmdline_spellings_agree_half :
    ∃ globals : Globals,
      (∀ spelling : Spelling,
        Gives (parseCmdline (commandLine memtoolText (some .half)
          (spelling.args ['2', '0', 'E', '0', '0', '4'] ['a', '5']))) .start 0 globals) ∧
        globals.gPaddr = BitVec.ofNat 32 (hexValue 0 ['2', '0', 'E', '0', '0', '4']) ∧
        globals.gValue = number ['a', '5'] ∧ globals.gIsWrite = 1 ∧
        globals.gSize = ((some Size.half).map Size.bytes).getD 4 :=
  parseCmdline_spellings_agree memtoolText (some .half)
    ⟨List.all_eq_true.mp (by decide), by decide, by decide⟩
    ⟨List.all_eq_true.mp (by decide), by decide⟩

end ImxTest.Memtool.CommandLine
