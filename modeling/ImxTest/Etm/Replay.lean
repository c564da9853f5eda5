import ImxTest.Etm.Encoding
import ImxTest.Etm.Objdump

/-!
# The script shows what was executed

`Runs` says of a processor that executes the disassembled program in ARM state what
its trace unit sends.  An ETM sends every instruction and, of a branch, the target
only where it does not stand in the instruction.  The program flow trace sends the
branches alone; it keeps the return addresses of the last calls, and does not send
the target of a return that goes to the last of them.  Whatever the processor does,
the decoder and the script show the instructions of the run in their order.
-/

set_option autoImplicit false

namespace ImxTest.Etm

/-- Where the processor is, as the trace tells it.  A return to the last call is known
to the script only with the next line. -/
inductive Whereabouts where
  | unknown
  | known (addr : Int)
  | returned (addr : Int)
  deriving DecidableEq, Repr

/-- An instruction that was executed, by address; whether its condition held is known
of those that the trace tells of. -/
structure Step where
  addr : Int
  executed : Option Bool
  deriving DecidableEq, Repr

namespace Objects

/-- `count` instructions from an address on that are no branches. -/
def Straight (objects : Objects) (addr : Int) (count : Nat) : Prop :=
  ∀ i < count, ∃ obj, objects.get (addr + 4 * i) = some obj ∧ isBranch obj = some false

end Objects

def passedSteps (addr : Int) : Nat → List Step
  | 0 => []
  | count + 1 => ⟨addr, none⟩ :: passedSteps (addr + 4) count

def pushed (link : Bool) (addr : Int) (stack : List Int) : List Int :=
  if link then (addr + 4) :: stack else stack

/-- What comes of an instruction: whether its condition held, where the processor is
afterwards and which return addresses the unit keeps.  The script also stores that of a
call that is skipped. -/
inductive Leads (flow : Bool) (obj : Obj) (addr : Int) (stack : List Int) :
    Bool → Whereabouts → List Int → Prop where
  | straight {executed : Bool} (plain : flow = false) (branch : isBranch obj = some false) :
      Leads flow obj addr stack executed (.known (addr + 4)) stack
  | skipped {link : Bool} (branch : isBranch obj = some true)
      (call : isBranchAndLink obj = some link) (safe : link = true → stack = []) :
      Leads flow obj addr stack false (.known (addr + 4)) stack
  | direct {link : Bool} {target : Int} {stack' : List Int} (branch : isBranch obj = some true)
      (call : isBranchAndLink obj = some link) (known : branchAddr obj = some (some target))
      (keeps : stack' <+: pushed link addr stack) :
      Leads flow obj addr stack true (.known target) stack'
  | indirect {link : Bool} {stack' : List Int} (branch : isBranch obj = some true)
      (call : isBranchAndLink obj = some link) (unknown : branchAddr obj = some none)
      (keeps : stack' <+: pushed link addr stack) :
      Leads flow obj addr stack true .unknown stack'
  | ret {target : Int} {rest : List Int} (told : flow = true) (branch : isBranch obj = some true)
      (call : isBranchAndLink obj = some false) (unknown : branchAddr obj = some none)
      (top : stack = target :: rest) :
      Leads flow obj addr stack true (.returned target) rest

/-- A run of the processor, from a place of the trace on: the events that are sent and
the instructions that they tell of. -/
inductive Runs (objects : Objects) (flow : Bool) :
    Place → List Int → Whereabouts → List Event → List Step → Prop where
  | nil (place : Place) (stack : List Int) (whereabouts : Whereabouts) :
      Runs objects flow place stack whereabouts [] []
  | wait {place : Place} {stack : List Int} {whereabouts : Whereabouts} {events : List Event}
      {steps : List Step}
      (rest : Runs objects flow (place.step flow .wait) stack whereabouts events steps) :
      Runs objects flow place stack whereabouts (.wait :: events) steps
  | sync {place : Place} {stack : List Int} {whereabouts : Whereabouts} {events : List Event}
      {steps : List Step} (addr : Word)
      (rest : Runs objects flow (place.goTo addr .arm) [] (.known addr.toNat) events steps) :
      Runs objects flow place stack whereabouts (.sync addr .arm :: events) steps
  | jump {place : Place} {stack : List Int} {whereabouts : Whereabouts} {events : List Event}
      {steps : List Step} (addr : Word)
      (settled : ∀ target, whereabouts = .returned target → stack = [])
      (rest : Runs objects flow (place.goTo addr .arm) stack (.known addr.toNat) events steps) :
      Runs objects flow place stack whereabouts (.jump addr .arm :: events) steps
  | instruction {place : Place} {stack stack' : List Int} {whereabouts after : Whereabouts}
      {events : List Event} {steps : List Step} {addr : Int} {passed : Nat} {obj : Obj}
      {executed : Bool} (valid : place.valid = 0xffffffff) (arm : place.mode = .arm)
      (room : flow = false → place.pc.toNat + 4 < 2 ^ 32)
      (here : whereabouts = .known addr ∨ whereabouts = .returned addr)
      (single : flow = false → passed = 0) (straight : objects.Straight addr passed)
      (found : objects.get (addr + 4 * passed) = some obj)
      (leads : Leads flow obj (addr + 4 * passed) stack executed after stack')
      (rest : Runs objects flow (place.step flow (.instruction executed)) stack' after events
        steps) :
      Runs objects flow place stack whereabouts (.instruction executed :: events)
        (passedSteps addr passed ++ ⟨addr + 4 * passed, some executed⟩ :: steps)

/-! ## What the script knows -/

def Shown.step : Shown → Option Step
  | .passed addr => some ⟨addr, none⟩
  | .traced executed addr _ => some ⟨addr, some executed⟩
  | _ => none

def Script.steps (script : Script) : List Step :=
  script.output.filterMap Shown.step

/-- The script can tell where the processor is, and has the return addresses that the
unit keeps on top of its own. -/
def Agrees (place : Place) (stack : List Int) (script : Script) : Whereabouts → Prop
  | .unknown => stack <+: script.returnStack
  | .known addr => stack <+: script.returnStack ∧
      (script.branchTarget = some addr ∨
        script.branchTarget = none ∧ script.needBranchTarget = false ∧
          place.pc.toNat + script.addrOffset = addr)
  | .returned addr => script.branchTarget = none ∧ script.needBranchTarget = true ∧
      ∃ rest, script.returnStack = addr :: rest ∧ stack <+: rest

/-- The script just before it prints an instruction. -/
structure Aimed (guessed addr : Int) (stack : List Int) (script : Script) : Prop where
  offset : guessed + script.addrOffset = addr
  branchTarget : script.branchTarget = none
  needBranchTarget : script.needBranchTarget = false
  returnStack : stack <+: script.returnStack

section Script
variable {objects : Objects} {flow : Bool} {place : Place} {stack stack' : List Int}
variable {script : Script} {guessed addr : Int} {obj : Obj}

theorem steps_print (script : Script) (lines : List Shown) :
    (script.print lines).steps = script.steps ++ lines.filterMap Shown.step :=
  List.filterMap_append

theorem aimed_aim {whereabouts : Whereabouts} (agrees : Agrees place stack script whereabouts)
    (here : whereabouts = .known addr ∨ whereabouts = .returned addr) :
    Aimed place.pc.toNat addr stack (script.aim place.pc.toNat) ∧
      (script.aim place.pc.toNat).steps = script.steps := by
  have offset : (place.pc.toNat : Int) + (addr - place.pc.toNat) = addr := by omega
  rcases here with rfl | rfl
  · obtain ⟨keeps, target | ⟨target, need, current⟩⟩ := agrees
    · simp only [Script.aim, target]
      exact ⟨⟨offset, rfl, rfl, keeps⟩, rfl⟩
    · simp only [Script.aim, target, need]
      exact ⟨⟨current, target, need, keeps⟩, rfl⟩
  · obtain ⟨target, need, rest, top, keeps⟩ := agrees
    simp only [Script.aim, target, need, top]
    exact ⟨⟨offset, rfl, rfl, keeps⟩, rfl⟩

theorem settle_found (aimed : Aimed guessed addr stack script)
    (found : objects.get addr = some obj) : script.settle objects guessed = script := by
  unfold Script.settle
  rw [aimed.offset]
  simp only [found]

/-! ## The two sorts of instructions -/

theorem isBranch_instr {branch : Bool} (known : isBranch obj = some branch) :
    ∃ instr, obj.instr = some instr := by
  cases instr : obj.instr with
  | none =>
      rw [isBranch, instr] at known
      cases known
  | some text => exact ⟨text, rfl⟩

theorem isConditional_of_isBranch {branch : Bool} (known : isBranch obj = some branch) :
    ∃ conditional, isConditional obj = some conditional := by
  obtain ⟨instr, same⟩ := isBranch_instr known
  rw [isConditional, same]
  exact ⟨_, rfl⟩

theorem isBranchAndLink_of_straight (straight : isBranch obj = some false) :
    isBranchAndLink obj = some false := by
  obtain ⟨instr, same⟩ := isBranch_instr straight
  simp only [isBranch, same, Option.bind_eq_bind, Option.bind_some] at straight
  simp only [isBranchAndLink, same, Option.bind_eq_bind, Option.bind_some]
  generalize withoutCondition instr = bare at straight ⊢
  cases call : isIn bare instrBranchAndLink with
  | false => rfl
  | true =>
      have bareCall : lastChars 1 bare ≠ ['s'] ∧ isIn bare instrBranch = true := by
        simp only [isIn, instrBranchAndLink, List.any_cons, List.any_nil, Bool.or_false,
          Bool.or_eq_true, beq_iff_eq] at call
        rcases call with rfl | rfl
        · exact ⟨by decide, by decide⟩
        · exact ⟨by decide, by decide⟩
      rw [beq_false_of_ne bareCall.1, Bool.false_and, if_neg Bool.false_ne_true,
        if_pos bareCall.2] at straight
      cases straight

/-! ## One line -/

theorem walk_straight {passed : Nat} (straight : objects.Straight addr passed)
    (found : objects.get (addr + 4 * passed) = some obj) (branch : isBranch obj = some true) :
    ∃ lines, walk objects addr = some (lines, addr + 4 * passed) ∧
      lines.filterMap Shown.step = passedSteps addr passed := by
  induction passed generalizing addr with
  | zero =>
      have same : addr + 4 * ((0 : Nat) : Int) = addr := by omega
      rw [same] at found ⊢
      rw [walk]
      split
      · next missing => rw [missing] at found; cases found
      · next obj' found' =>
          rw [found'] at found
          cases found
          rw [branch]
          exact ⟨[], rfl, rfl⟩
  | succ passed ih =>
      obtain ⟨first, found', plain⟩ := straight 0 (Nat.succ_pos passed)
      have same : addr + 4 * ((0 : Nat) : Int) = addr := by omega
      have last : addr + 4 * ((passed + 1 : Nat) : Int) = addr + 4 + 4 * (passed : Int) := by omega
      rw [same] at found'
      rw [last] at found ⊢
      have others : objects.Straight (addr + 4) passed := by
        intro i less
        have next := straight (i + 1) (Nat.succ_lt_succ less)
        have moved : addr + 4 * ((i + 1 : Nat) : Int) = addr + 4 + 4 * (i : Int) := by omega
        rwa [moved] at next
      obtain ⟨lines, walked, steps⟩ := ih others found
      refine ⟨.passed addr :: lines, ?_, ?_⟩
      · rw [walk]
        split
        · next missing => rw [missing] at found'; cases found'
        · next obj' again =>
            rw [again] at found'
            cases found'
            rw [plain]
            simp only [walked]
            rfl
      · rw [List.filterMap_cons, passedSteps, steps]
        rfl

namespace Script

/-- The script when the line has been printed and the return address of a call is
stored. -/
def entered (link executed : Bool) (addr : Int) (waited : Nat) (script : Script) : Script :=
  { script with returnStack := pushed link addr script.returnStack }.print
    [.traced executed addr waited]

theorem traced_entered {link : Bool} (executed : Bool) (waited : Nat)
    (call : isBranchAndLink obj = some link) :
    script.traced executed addr waited obj =
      let script := script.entered link executed addr waited
      if executed then do
        let branch ← isBranch obj
        if branch then
          let target ← branchAddr obj
          match target with
          | some target => return { script with branchTarget := some target }
          | none =>
              return { script with
                branchTarget := none
                addrOffset := 0
                needBranchTarget := true }
        else return script
      else do
        let conditional ← isConditional obj
        return if conditional then script else script.print [.unconditional] := by
  rw [traced, call]
  cases link with
  | true => rfl
  | false => rfl

end Script

/-- After an instruction that is not followed by a jump. -/
theorem checked_agrees (script : Script) (conditional : Bool) {place' : Place}
    (offset : place'.pc.toNat + script.addrOffset = addr + 4)
    (target : script.branchTarget = none) (need : script.needBranchTarget = false)
    (keeps : stack <+: script.returnStack) :
    let checked := if conditional then script else script.print [.unconditional]
    checked.steps = script.steps ∧ Agrees place' stack checked (.known (addr + 4)) := by
  have agrees : Agrees place' stack script (.known (addr + 4)) :=
    ⟨keeps, .inr ⟨target, need, offset⟩⟩
  cases conditional with
  | true => exact ⟨rfl, agrees⟩
  | false => exact ⟨(steps_print script _).trans (List.append_nil _), agrees⟩

/-- The line of an instruction tells what comes of it. -/
theorem traced_leads (script : Script) {place' : Place} {executed : Bool} {after : Whereabouts}
    (waited : Nat)
    (leads : Leads flow obj addr stack executed after stack')
    (offset : place'.pc.toNat + script.addrOffset = addr + 4)
    (target : script.branchTarget = none) (need : script.needBranchTarget = false)
    (keeps : stack <+: script.returnStack) :
    ∃ script', script.traced executed addr waited obj = some script' ∧
      script'.steps = script.steps ++ [⟨addr, some executed⟩] ∧
      Agrees place' stack' script' after := by
  have shown (link : Bool) : (script.entered link executed addr waited).steps =
      script.steps ++ [⟨addr, some executed⟩] := steps_print _ _
  have deeper {link : Bool} (short : stack' <+: pushed link addr stack) :
      stack' <+: (script.entered link executed addr waited).returnStack := by
    refine short.trans ?_
    cases link with
    | true => exact (List.prefix_cons_inj _).mpr keeps
    | false => exact keeps
  cases leads with
  | straight plain branch =>
      have call := isBranchAndLink_of_straight branch
      obtain ⟨conditional, check⟩ := isConditional_of_isBranch branch
      rw [Script.traced_entered executed waited call]
      cases executed with
      | true =>
          simp only [branch]
          exact ⟨_, rfl, shown false, keeps, .inr ⟨target, need, offset⟩⟩
      | false =>
          simp only [check]
          obtain ⟨same, agrees⟩ := checked_agrees (script.entered false false addr waited)
            conditional offset target need keeps
          exact ⟨_, rfl, same.trans (shown false), agrees⟩
  | @skipped link branch call safe =>
      obtain ⟨conditional, check⟩ := isConditional_of_isBranch branch
      have keeps' : stack <+: (script.entered link false addr waited).returnStack := by
        cases link with
        | true =>
            rw [safe rfl]
            exact List.nil_prefix
        | false => exact keeps
      rw [Script.traced_entered false waited call]
      simp only [check]
      obtain ⟨same, agrees⟩ := checked_agrees (script.entered link false addr waited)
        conditional offset target need keeps'
      exact ⟨_, rfl, same.trans (shown link), agrees⟩
  | @direct link destination _ branch call known short =>
      rw [Script.traced_entered true waited call]
      simp only [branch, known]
      exact ⟨_, rfl, shown link, deeper short, .inl rfl⟩
  | @indirect link _ branch call unknown short =>
      rw [Script.traced_entered true waited call]
      simp only [branch, unknown]
      exact ⟨_, rfl, shown link, deeper short⟩
  | ret told branch call unknown top =>
      subst top
      obtain ⟨more, deep⟩ := keeps
      rw [Script.traced_entered true waited call]
      simp only [branch, unknown]
      refine ⟨_, rfl, shown false, rfl, rfl, stack' ++ more, ?_, List.prefix_append _ _⟩
      exact deep.symm

theorem execute_single {executed : Bool} {waited : Nat}
    (aimed : Aimed guessed addr stack (script.aim guessed))
    (found : objects.get addr = some obj) :
    script.execute objects executed guessed none waited =
      (script.aim guessed).traced executed addr waited obj := by
  have settled := settle_found aimed found
  unfold Script.execute
  simp only [settled, aimed.offset, found]

theorem execute_walk {executed : Bool} {points waited : Nat} {last : Int} {first : Obj}
    {lines : List Shown} (aimed : Aimed guessed addr stack (script.aim guessed))
    (begins : objects.get addr = some first) (walked : walk objects addr = some (lines, last))
    (found : objects.get last = some obj) :
    script.execute objects executed guessed (some points) waited =
      { (script.aim guessed).print lines with addrOffset := last - guessed + 4 }.traced
        executed last waited obj := by
  have settled := settle_found aimed begins
  unfold Script.execute
  simp only [settled, aimed.offset, begins, walked, found, Option.bind_eq_bind, Option.bind_some]

theorem straight_begins {passed : Nat} (straight : objects.Straight addr passed)
    (found : objects.get (addr + 4 * passed) = some obj) :
    ∃ first, objects.get addr = some first := by
  have same : addr + 4 * ((0 : Nat) : Int) = addr := by omega
  cases passed with
  | zero =>
      rw [same] at found
      exact ⟨obj, found⟩
  | succ passed =>
      obtain ⟨first, begins, _⟩ := straight 0 (Nat.succ_pos passed)
      rw [same] at begins
      exact ⟨first, begins⟩

/-- An instruction of a trace of all instructions. -/
theorem execute_leads {executed : Bool} {whereabouts after : Whereabouts} (waited : Nat)
    (arm : place.mode = .arm) (room : place.pc.toNat + 4 < 2 ^ 32)
    (here : whereabouts = .known addr ∨ whereabouts = .returned addr)
    (found : objects.get addr = some obj)
    (leads : Leads false obj addr stack executed after stack')
    (agrees : Agrees place stack script whereabouts) :
    ∃ script', script.execute objects executed place.pc.toNat none waited = some script' ∧
      script'.steps = script.steps ++ [⟨addr, some executed⟩] ∧
      Agrees (place.step false (.instruction executed)) stack' script' after := by
  obtain ⟨aimed, steps⟩ := aimed_aim agrees here
  have next : (place.step false (.instruction executed)).pc.toNat = place.pc.toNat + 4 := by
    have four : (1 <<< Mode.shift .arm) = 4 := rfl
    simp only [Place.step, arm, four, Bool.false_eq_true, if_false]
    rw [BitVec.toNat_add]
    exact Nat.mod_eq_of_lt room
  have offset : (place.step false (.instruction executed)).pc.toNat +
      (script.aim place.pc.toNat).addrOffset = addr + 4 := by
    rw [next, ← aimed.offset]
    omega
  obtain ⟨script', traced, steps', agrees'⟩ := traced_leads _ waited leads offset
    aimed.branchTarget aimed.needBranchTarget aimed.returnStack
  rw [execute_single aimed found]
  exact ⟨script', traced, by rw [steps', steps], agrees'⟩

/-- A branch of the program flow trace and what was passed over before it. -/
theorem execute_leads_flow {executed : Bool} {whereabouts after : Whereabouts} {passed : Nat}
    (points waited : Nat) (here : whereabouts = .known addr ∨ whereabouts = .returned addr)
    (straight : objects.Straight addr passed)
    (found : objects.get (addr + 4 * passed) = some obj)
    (leads : Leads true obj (addr + 4 * passed) stack executed after stack')
    (agrees : Agrees place stack script whereabouts) :
    ∃ script', script.execute objects executed place.pc.toNat (some points) waited =
        some script' ∧
      script'.steps = script.steps ++
        (passedSteps addr passed ++ [⟨addr + 4 * passed, some executed⟩]) ∧
      Agrees (place.step true (.instruction executed)) stack' script' after := by
  obtain ⟨aimed, steps⟩ := aimed_aim agrees here
  obtain ⟨first, begins⟩ := straight_begins straight found
  have branch : isBranch obj = some true := by
    cases leads with
    | straight plain branch => cases plain
    | skipped branch call safe => exact branch
    | direct branch call known keeps => exact branch
    | indirect branch call unknown keeps => exact branch
    | ret told branch call unknown top => exact branch
  obtain ⟨lines, walked, passedLines⟩ := walk_straight straight found branch
  have offset : (place.step true (.instruction executed)).pc.toNat +
      (addr + 4 * (passed : Int) - place.pc.toNat + 4) = addr + 4 * (passed : Int) + 4 := by
    have same : (place.step true (.instruction executed)).pc = place.pc := rfl
    rw [same]
    omega
  let behind : Script :=
    { (script.aim place.pc.toNat).print lines with
      addrOffset := addr + 4 * passed - place.pc.toNat + 4 }
  have behindSteps : behind.steps = script.steps ++ passedSteps addr passed := by
    rw [← steps, ← passedLines]
    exact steps_print _ _
  obtain ⟨script', traced, steps', agrees'⟩ := traced_leads behind waited leads offset
    aimed.branchTarget aimed.needBranchTarget aimed.returnStack
  rw [execute_walk aimed begins walked found]
  exact ⟨script', traced, by rw [steps', behindSteps, List.append_assoc], agrees'⟩

/-! ## Whole runs -/

theorem lines_append (first second : List Report) :
    script.lines objects (first ++ second) =
      (script.lines objects first).bind fun script => script.lines objects second := by
  induction first generalizing script with
  | nil => rfl
  | cons report rest ih =>
      simp only [List.cons_append, Script.lines, Option.bind_eq_bind]
      cases script.line objects report with
      | none => rfl
      | some next => exact ih

theorem lines_one (report : Report) :
    script.lines objects [report] = script.line objects report := by
  simp only [Script.lines, Option.bind_eq_bind]
  cases script.line objects report with
  | none => rfl
  | some next => rfl

theorem Agrees.wait {whereabouts : Whereabouts} (agrees : Agrees place stack script whereabouts) :
    Agrees (place.step flow .wait) stack script whereabouts := by
  cases whereabouts with
  | unknown => exact agrees
  | known addr => exact agrees
  | returned addr => exact agrees

/-- A jump leads the script wherever it was, but not with a return still to be taken
from its stack. -/
theorem branch_agrees {whereabouts : Whereabouts} (agrees : Agrees place stack script whereabouts)
    (settled : ∀ target, whereabouts = .returned target → stack = []) (addr : Word) :
    (script.branch addr.toNat).steps = script.steps ∧
      Agrees (place.goTo addr .arm) stack (script.branch addr.toNat) (.known addr.toNat) := by
  have keeps : stack <+: script.returnStack := by
    cases whereabouts with
    | unknown => exact agrees
    | known target => exact agrees.1
    | returned target =>
        rw [settled target rfl]
        exact List.nil_prefix
  cases target : script.branchTarget with
  | none =>
      simp only [Script.branch, target]
      exact ⟨rfl, keeps, .inl rfl⟩
  | some old =>
      simp only [Script.branch, target]
      refine ⟨?_, keeps, .inl rfl⟩
      refine (steps_print script _).trans ?_
      split
      · exact List.append_nil _
      · exact List.append_nil _

theorem isync_agrees (addr : Word) :
    (script.isync addr.toNat).steps = script.steps ∧
      Agrees (place.goTo addr .arm) [] (script.isync addr.toNat) (.known addr.toNat) := by
  refine ⟨?_, List.nil_prefix, .inl rfl⟩
  refine (steps_print script _).trans ?_
  split
  · exact List.append_nil _
  · split
    · exact List.append_nil _
    · exact List.append_nil _

theorem Runs.shown {whereabouts : Whereabouts} {events : List Event} {steps : List Step}
    (runs : Runs objects flow place stack whereabouts events steps)
    (agrees : Agrees place stack script whereabouts) :
    ∃ script', script.lines objects (place.reports flow events) = some script' ∧
      script'.steps = script.steps ++ steps := by
  induction runs generalizing script with
  | nil place stack whereabouts => exact ⟨script, rfl, (List.append_nil _).symm⟩
  | wait rest ih => exact ih agrees.wait
  | @sync place stack whereabouts events steps addr rest ih =>
      obtain ⟨same, agrees'⟩ := isync_agrees addr
      obtain ⟨script', run, shown⟩ := ih agrees'
      exact ⟨script', run, by rw [shown, same]⟩
  | @jump place stack whereabouts events steps addr settled rest ih =>
      obtain ⟨same, agrees'⟩ := branch_agrees agrees settled addr
      obtain ⟨script', run, shown⟩ := ih agrees'
      exact ⟨script', run, by rw [shown, same]⟩
  | @instruction place stack stack' whereabouts after events steps addr passed obj executed valid
      arm room here single straight found leads rest ih =>
      have line : ∃ script', script.lines objects (place.report flow (.instruction executed)) =
          some script' ∧
          script'.steps = script.steps ++
            (passedSteps addr passed ++ [⟨addr + 4 * passed, some executed⟩]) ∧
          Agrees (place.step flow (.instruction executed)) stack' script' after := by
        rw [Place.report, if_pos valid, lines_one]
        cases flow with
        | false =>
            obtain rfl := single rfl
            have same : addr + 4 * ((0 : Nat) : Int) = addr := by omega
            rw [same] at found leads ⊢
            exact execute_leads place.waited arm (room rfl) here found leads agrees
        | true =>
            exact execute_leads_flow (place.points + 1) place.waited here straight found leads
              agrees
      obtain ⟨middle, first, steps', agrees'⟩ := line
      obtain ⟨script', run, shown⟩ := ih agrees'
      refine ⟨script', ?_, ?_⟩
      · rw [Place.reports, lines_append, first]
        exact run
      · rw [shown, steps']
        simp

end Script

/-! ## From the file to the instructions -/

def asm (instr args : String) : Obj :=
  ⟨some instr.toList, some args.toList⟩

/-- A call at 0x8004, a return and a jump back. -/
def callingObjects : Objects :=
  [(0x8000, asm "mov" "r0, #1"), (0x8004, asm "bl" "00009000 <twice>"),
    (0x8008, asm "adds" "r0, r0, #2"), (0x800c, asm "bne" "00008000 <start>"),
    (0x9000, asm "add" "r0, r0, r0"), (0x9004, asm "bx" "lr")]

def plainPft : Config where
  contextidBytes := 4
  longWait := 1000000
  cycleAccurate := false
  altBranch := true
  programFlowOnly := true
  table := .pft

theorem callingObjects_straight {addr : Int} (member : addr ∈ [0x8000, 0x9000, 0x8008]) :
    callingObjects.Straight addr 1 := by
  intro i less
  obtain rfl : i = 0 := by omega
  simp only [List.mem_cons, List.not_mem_nil, or_false] at member
  rcases member with rfl | rfl | rfl
  · exact ⟨_, rfl, by decide +kernel⟩
  · exact ⟨_, rfl, by decide +kernel⟩
  · exact ⟨_, rfl, by decide +kernel⟩

theorem callingObjects_runs :
    Runs callingObjects true (Place.first plainPft) [] .unknown
      [.sync 0x8000 .arm, .instruction true, .instruction true, .instruction false]
      [⟨0x8000, none⟩, ⟨0x8004, some true⟩, ⟨0x9000, none⟩, ⟨0x9004, some true⟩,
        ⟨0x8008, none⟩, ⟨0x800c, some false⟩] := by
  have call : Leads true (asm "bl" "00009000 <twice>") 0x8004 [] true (.known 0x9000) [0x8008] :=
    @Leads.direct _ _ _ _ true 0x9000 _ (by decide +kernel) (by decide +kernel)
      (by decide +kernel) (List.prefix_refl _)
  have back : Leads true (asm "bx" "lr") 0x9004 [0x8008] true (.returned 0x8008) [] :=
    .ret rfl (by decide +kernel) (by decide +kernel) (by decide +kernel) rfl
  have on : Leads true (asm "bne" "00008000 <start>") 0x800c [] false (.known 0x8010) [] :=
    @Leads.skipped _ _ _ _ false (by decide +kernel) (by decide +kernel) nofun
  refine .sync 0x8000 ?_
  refine @Runs.instruction _ true _ _ _ _ _ _ _ 0x8000 1 _ _ rfl rfl nofun (.inl rfl) nofun
    (callingObjects_straight (by decide)) rfl call ?_
  refine @Runs.instruction _ true _ _ _ _ _ _ _ 0x9000 1 _ _ rfl rfl nofun (.inl rfl) nofun
    (callingObjects_straight (by decide)) rfl back ?_
  refine @Runs.instruction _ true _ _ _ _ _ _ _ 0x8008 1 _ _ rfl rfl nofun (.inr rfl) nofun
    (callingObjects_straight (by decide)) rfl on ?_
  exact .nil _ _ _

end ImxTest.Etm
