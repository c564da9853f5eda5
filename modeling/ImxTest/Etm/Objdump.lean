import ImxTest.Etm.Trace

/-!
# The instructions behind a trace

`etm-objdump.py` reads the lines of `etm` next to the disassembly of the traced
program and prints the instructions in the order in which they were executed.  The
decoder does not know of branches whose target stands in the instruction, so the
script keeps an offset to the addresses of the lines.  `none` stands for an
exception of the script.  Left out are the call of `objdump` and the expressions
that take its output apart, and the lines that are only echoed.
-/

set_option autoImplicit false

namespace ImxTest.Etm

/-! ## `objdump.py` -/

/-- The groups `instr` and `args` of a line of the disassembly.  Both may be missing. -/
structure Obj where
  instr : Option (List Char)
  args : Option (List Char)
  deriving DecidableEq, Repr

def instrCondition : List String :=
  ["eq", "ne", "cs", "hs", "cc", "lo", "mi", "pl", "vs", "vc", "hi", "ls", "ge", "lt", "gt", "le",
    "al"]

def instrBranchAndLink : List String :=
  ["bl", "blx"]

def instrBranchWithoutLink : List String :=
  ["b", "bx"]

def instrBranch : List String :=
  instrBranchAndLink ++ instrBranchWithoutLink

def instrCp : List String :=
  ["mrc", "mcr", "mcr2", "mcrr", "mcrr2", "mrs", "msr"]

def instrIgnore : List String :=
  ["cmp", "cmn", "str", "strt", "strb", "strbt", "strh", "strd", "strex", "strexd", "tst", "teq",
    "nop", "push", "stm", "stmia", "stmib", "stmda", "stmdb", "cpsid", "cpsie", "isb", "dsb",
    "dmb", "wfi", "wfe", "svc", "fmxr", "fmsr", "vstmia", "vldmia", "pld", "clrex", "sev",
    ".word"]

def instrDestreg : List String :=
  ["mov", "movt", "movw", "mvn", "add", "adc", "sub", "sbc", "and", "orr", "ror", "eor", "asr",
    "lsr", "lsl", "rrx", "rsb", "rsc", "bic", "mul", "mla", "mls", "rev", "ldr", "ldrb", "ldrbt",
    "ldrh", "ldrht", "ldrd", "ldrt", "ldrsb", "ldrsh", "ldrex", "ldrexd", "clz", "rev", "rev16",
    "bfc", "bfi", "sxtb16", "sxtb", "sxth", "sxtab16", "sxtab", "sxtah", "uxtb16", "uxtb", "uxth",
    "uxtab16", "uxtab", "uxtah", "ubfx", "sbfx", "umull", "umlal", "smull", "smulbb", "smlal",
    "fmrx", "fmrs", "vmov"]

def instrLdm : List String :=
  ["ldm", "ldmia", "ldmib", "ldmda", "ldmdb", "pop"]

def instrAll : List String :=
  instrBranch ++ instrCp ++ instrIgnore ++ instrDestreg ++ instrLdm

def isIn (text : List Char) (set : List String) : Bool :=
  set.any fun name => name.toList == text

def butLast (count : Nat) (text : List Char) : List Char :=
  text.take (text.length - count)

def lastChars (count : Nat) (text : List Char) : List Char :=
  text.drop (text.length - count)

/-- The test that `is_branch`, `is_branch_and_link` and `is_conditional` share. -/
def hasCondition (instr : List Char) : Bool :=
  (isIn (butLast 2 instr) instrAll ||
      3 < instr.length && instr[instr.length - 3]? == some 's' &&
        isIn (butLast 3 instr) instrAll) &&
    isIn (lastChars 2 instr) instrCondition

def withoutCondition (instr : List Char) : List Char :=
  if hasCondition instr then butLast 2 instr else instr

/-- `arg.strip('{ }')`. -/
def strip (arg : List Char) : List Char :=
  let inSet := fun ch : Char => ch == '{' || ch == ' ' || ch == '}'
  ((arg.dropWhile inSet).reverse.dropWhile inSet).reverse

def isBranch (obj : Obj) : Option Bool := do
  let instr ← obj.instr
  let instr := withoutCondition instr
  let instr :=
    if lastChars 1 instr == ['s'] && isIn (butLast 1 instr) instrAll then butLast 1 instr
    else instr
  if isIn instr instrBranch then some true
  else if isIn instr instrCp then some false
  else if isIn instr instrIgnore then some false
  else if isIn instr instrDestreg then
    -- No arguments cannot be indexed, and an empty string neither.
    match obj.args with
    | none => none
    | some [] => none
    | some args => some ((args.splitOn ',').head? == some ['p', 'c'])
  else if isIn instr instrLdm then
    match obj.args with
    | none => none
    | some [] => some false
    | some args => some (((args.splitOn ',').map strip).contains ['p', 'c'])
  else some false

def isBranchAndLink (obj : Obj) : Option Bool := do
  let instr ← obj.instr
  return isIn (withoutCondition instr) instrBranchAndLink

def isConditional (obj : Obj) : Option Bool := do
  let instr ← obj.instr
  return hasCondition instr

def hexDigit (ch : Char) : Option Nat :=
  if '0' ≤ ch ∧ ch ≤ '9' then some (ch.toNat - '0'.toNat)
  else if 'a' ≤ ch ∧ ch ≤ 'f' then some (ch.toNat - 'a'.toNat + 10)
  else none

/-- `int(text, 16)` of eight digits, where the text begins with them. -/
def hexWord (text : List Char) : Option Nat :=
  if 8 ≤ text.length then
    (text.take 8).foldl (fun value ch => do
      let value ← value
      let digit ← hexDigit ch
      return 16 * value + digit) (some 0)
  else none

def branchAddr (obj : Obj) : Option (Option Int) := do
  let args ← obj.args
  return (hexWord args).map Int.ofNat

/-! ## `etm-objdump.py` -/

/-- The instructions by address. -/
abbrev Objects : Type := List (Int × Obj)

def Objects.get (objects : Objects) (addr : Int) : Option Obj :=
  objects.lookup addr

/-- The lines that the script prints.  Of an instruction only the address is kept. -/
inductive Shown where
  | missingTarget
  | unknown (adjusted offset : Int)
  | passed (addr : Int)
  | bare (executed : Bool) (guessed : Int) (waited : Nat)
  | traced (executed : Bool) (addr : Int) (waited : Nat)
  | unconditional
  | targetChanged (old new : Int)
  | unneeded
  | isync
  | isyncChanged (old new : Int)
  deriving DecidableEq, Repr

structure Script where
  addrOffset : Int
  branchTarget : Option Int
  needBranchTarget : Bool
  /-- The last one first. -/
  returnStack : List Int
  output : List Shown
  deriving DecidableEq, Repr

namespace Script

def start : Script where
  addrOffset := 0
  branchTarget := none
  needBranchTarget := false
  returnStack := []
  output := []

def print (script : Script) (lines : List Shown) : Script :=
  { script with output := script.output ++ lines }

/-- Which offset the coming lines have. -/
def aim (guessed : Int) (script : Script) : Script :=
  match script.branchTarget with
  | some target =>
      { script with
        addrOffset := target - guessed
        branchTarget := none
        needBranchTarget := false }
  | none =>
      if script.needBranchTarget then
        match script.returnStack with
        | top :: rest =>
            { script with
              addrOffset := top - guessed
              returnStack := rest
              needBranchTarget := false }
        | [] => { script.print [.missingTarget] with needBranchTarget := false }
      else script

/-- Where nothing is known of the address, the offset is tried without. -/
def settle (objects : Objects) (guessed : Int) (script : Script) : Script :=
  let adjusted := guessed + script.addrOffset
  match objects.get adjusted with
  | some _ => script
  | none =>
      let script := script.print [.unknown adjusted script.addrOffset]
      match objects.get guessed with
      | some _ => { script with addrOffset := 0 }
      | none => script

end Script

/-- How many instructions lie at an address or behind it. -/
def Objects.ahead (objects : Objects) (addr : Int) : Nat :=
  objects.countP fun entry => addr ≤ entry.1

theorem Objects.ahead_lt {objects : Objects} {addr : Int} {obj : Obj}
    (found : objects.get addr = some obj) : objects.ahead (addr + 4) < objects.ahead addr := by
  obtain ⟨before, behind, rfl, _⟩ := List.lookup_eq_some_iff.mp found
  have fewer (part : Objects) : part.ahead (addr + 4) ≤ part.ahead addr := by
    apply List.countP_mono_left
    intro entry _ further
    have : addr + 4 ≤ entry.1 := of_decide_eq_true further
    exact decide_eq_true (by omega)
  have first := fewer before
  have second := fewer behind
  simp only [ahead] at first second
  have here : ¬ addr + 4 ≤ addr := by omega
  simp only [ahead, List.countP_append, List.countP_cons, decide_eq_true_eq, if_neg here,
    Int.le_refl, if_true]
  omega

/-- The instructions up to the next branch, or up to where none is known. -/
def walk (objects : Objects) (addr : Int) : Option (List Shown × Int) :=
  match _found : objects.get addr with
  | none => some ([], addr)
  | some obj =>
      match isBranch obj with
      | none => none
      | some true => some ([], addr)
      | some false => do
          let (lines, last) ← walk objects (addr + 4)
          return (.passed addr :: lines, last)
termination_by objects.ahead addr
decreasing_by exact Objects.ahead_lt _found

namespace Script

def traced (executed : Bool) (addr : Int) (waited : Nat) (obj : Obj) (script : Script) :
    Option Script := do
  let link ← isBranchAndLink obj
  let script :=
    if link then { script with returnStack := (addr + 4) :: script.returnStack } else script
  let script := script.print [.traced executed addr waited]
  if executed then
    let branch ← isBranch obj
    if branch then
      let target ← branchAddr obj
      match target with
      | some target => return { script with branchTarget := some target }
      | none => return { script with branchTarget := none, addrOffset := 0, needBranchTarget := true }
    else return script
  else
    let conditional ← isConditional obj
    return if conditional then script else script.print [.unconditional]

def execute (objects : Objects) (executed : Bool) (guessed : Int) (branchPoints : Option Nat)
    (waited : Nat) (script : Script) : Option Script := do
  let script := (script.aim guessed).settle objects guessed
  let addr := guessed + script.addrOffset
  match objects.get addr with
  | none => return script.print [.bare executed guessed waited]
  | some obj =>
      match branchPoints with
      | none => script.traced executed addr waited obj
      | some _ => do
          let (lines, last) ← walk objects addr
          let script := { script.print lines with addrOffset := last - guessed + 4 }
          match objects.get last with
          | none => return script.print [.bare executed guessed waited]
          | some obj => script.traced executed last waited obj

def branch (target : Int) (script : Script) : Script :=
  let script :=
    match script.branchTarget with
    | none => script
    | some old => script.print [if old = target then .unneeded else .targetChanged old target]
  { script with branchTarget := some target }

def isync (target : Int) (script : Script) : Script :=
  let script := script.print [
    match script.branchTarget with
    | none => .isync
    | some old => if old = target then .isync else .isyncChanged old target]
  { script with returnStack := [], branchTarget := some target }

def line (objects : Objects) (script : Script) : Report → Option Script
  | .execute executed addr branchPoints waited =>
      script.execute objects executed addr.toNat branchPoints waited
  | .branch addr => some (script.branch addr.toNat)
  | .isync addr => some (script.isync addr.toNat)

/-- `for lineb in p.stdout`. -/
def lines (objects : Objects) : Script → List Report → Option Script
  | script, [] => some script
  | script, report :: rest => do
      let script ← script.line objects report
      script.lines objects rest

end Script

end ImxTest.Etm
