import ImxTest.Memtool.Query

/-!
# Completion of names

With `complete -C` the shell calls the program with the name of the command, the word to
complete and the word before it.  The program prints what the word can become: the names up
to the next dot that begin with the word.
-/

set_option autoImplicit false

namespace ImxTest.Memtool.Query

open ImxTest.Lib.CString
open ImxTest.Lib.Traced
open ImxTest.Memtool.CommandLine
open ImxTest.Memtool.RegisterWrite (Field Reg Module)

/-- The names with as many dots behind complete parts. -/
def names (table : List Module) : Nat → List Text
  | 0 => table.map moduleName
  | 1 => table.flatMap fun mx => mx.regs.map (regName mx)
  | _ => table.flatMap fun mx => mx.regs.flatMap fun r => r.fields.map (fieldName mx r)

def completions (table : List Module) (word : Text) : List Text :=
  (names table (word.count '.')).filter fun name => word <+: name

/-- The names that a dot follows have none themselves, so that the dots of a word tell its
parts. -/
structure Separable (table : List Module) : Prop where
  modules : ∀ mx ∈ table, '.' ∉ mx.name
  regs : ∀ mx ∈ table, ∀ r ∈ mx.regs, '.' ∉ r.name
  unique : (table.map Module.name).Nodup

/-- A word that is typed as a name. -/
structure Typed (word : Text) : Prop where
  begun : word.head? ≠ some '.'
  star : '*' ∉ word
  equal : '=' ∉ word

/-! ## The words of the shell -/

section Arguments
variable {program command word previous : Text}

/-- Where the word stands, if there is one: the shell gives an empty word when none is begun,
and this is passed over as the name of the command is. -/
def asked (word : Text) (globals : Globals) : Globals :=
  if word = [] then globals else extendCommand word globals

theorem skipMemtool_command {argv : List Text} {cur : Nat} {arg : Text} {globals after : Globals}
    {value turns : Nat} (here : argv[cur]? = some arg) (named : memtoolText <:+: arg)
    (rest : Gives (skipMemtool argv turns (cur + 1)) { globals with gComp := 1 } value after) :
    Gives (skipMemtool argv (turns + 1) cur) globals value after := by
  have inside : cur < argv.length := (List.getElem?_eq_some_iff.mp here).1
  rw [skipMemtool, if_pos inside]
  apply Gives.bind (fetch_gives here)
  rw [if_pos (strstr_eq_true.mpr named)]
  exact Gives.bind (Gives.change _) rest

theorem skipMemtool_empty {argv : List Text} {cur : Nat} {globals after : Globals}
    {value turns : Nat} (here : argv[cur]? = some [])
    (rest : Gives (skipMemtool argv turns (cur + 1)) globals value after) :
    Gives (skipMemtool argv (turns + 1) cur) globals value after := by
  have inside : cur < argv.length := (List.getElem?_eq_some_iff.mp here).1
  rw [skipMemtool, if_pos inside]
  apply Gives.bind (fetch_gives here)
  rw [if_neg (by decide)]
  apply Gives.bind (fetch_gives here)
  rw [if_pos List.length_nil]
  exact rest

theorem skipMemtool_end {argv : List Text} {cur : Nat} {globals : Globals} (turns : Nat)
    (past : argv.length ≤ cur) : Gives (skipMemtool argv turns cur) globals cur globals := by
  cases turns with
  | zero => exact Gives.pure cur
  | succ turns =>
      rw [skipMemtool, if_neg (Nat.not_lt.mpr past)]
      exact Gives.pure cur

theorem assignValue_gComp (text : Text) {set : Text → Globals → Globals}
    (keeps : ∀ text globals, (set text globals).gComp = globals.gComp) (globals : Globals) :
    (assignValue text set globals).gComp = globals.gComp := by
  rw [assignValue]
  cases behind '=' text with
  | none => exact keeps text globals
  | some value => exact keeps _ globals

theorem extendCommand_gComp (arg : Text) (globals : Globals) :
    (extendCommand arg globals).gComp = globals.gComp := by
  rw [extendCommand]
  cases behind '.' arg with
  | none => rfl
  | some str =>
      dsimp only
      cases behind '.' str with
      | none => exact (assignValue_gComp str (by intro _ _; rfl) _).trans rfl
      | some field => exact (assignValue_gComp field (by intro _ _; rfl) _).trans rfl

theorem parseCmdline_completion (command_named : memtoolText <:+: command)
    (word_other : ¬ memtoolText <:+: word)
    (before : word = [] → memtoolText <:+: previous) :
    Gives (parseCmdline [program, command, word, previous]) .start 0
      (asked word { Globals.start with gComp := 1 }) := by
  have here : [program, command, word, previous][1]? = some command := rfl
  have next : [program, command, word, previous][2]? = some word := rfl
  have long := command_named.length_le
  have notOption : ∀ size : Size, command ≠ size.text := by
    intro size same
    rw [same] at long
    cases size <;> exact absurd long (by decide)
  have notComp : command ≠ compText := by
    intro same
    rw [same] at long
    exact absurd long (by decide)
  apply Gives.bind (sizeOption_none here notOption _)
  apply Gives.bind (compOption_gives here notComp)
  by_cases empty : word = []
  · have last : [program, command, word, previous][3]? = some previous := rfl
    apply Gives.bind (skipMemtool_command here command_named
      (skipMemtool_empty (by rw [next, empty])
        (skipMemtool_command last (before empty) (skipMemtool_end _ (Nat.le_refl 4)))))
    apply Gives.bind (Gives.ask Globals.gComp)
    rw [asked, if_pos empty]
    exact Gives.pure 0
  · have other : strstr word memtoolText = false :=
      Bool.eq_false_of_not_eq_true fun found => word_other (strstr_eq_true.mp found)
    apply Gives.bind (skipMemtool_command here command_named
      (skipMemtool_gives next other empty 2))
    apply Gives.bind (Gives.ask Globals.gComp)
    rw [if_neg (by simp)]
    apply Gives.bind (fetch_gives next)
    rw [if_pos (by simp)]
    apply Gives.bind (Gives.change _)
    rw [asked, if_neg empty]
    exact Gives.pure 0

end Arguments

/-! ## Names that begin with a word -/

theorem prefix_dotted {module other rest tail : Text} (plain : '.' ∉ module)
    (plain_other : '.' ∉ other) :
    module ++ '.' :: rest <+: other ++ '.' :: tail ↔ module = other ∧ rest <+: tail := by
  constructor
  · rintro ⟨more, whole⟩
    rw [List.append_assoc, List.cons_append] at whole
    have front := congrArg (cut '.') whole
    rw [cut_append plain, cut_append plain_other] at front
    subst front
    exact ⟨rfl, more, (List.cons.inj (List.append_cancel_left whole)).2⟩
  · rintro ⟨rfl, begins⟩
    rw [List.prefix_append_right_inj, List.cons_prefix_cons]
    exact ⟨rfl, begins⟩

theorem prefix_terminated {word name : Text} (plain : '.' ∉ word) :
    word <+: name ++ ['.'] ↔ word <+: name := by
  constructor
  · exact prefix_append_separator plain
  · exact fun begins => begins.trans (List.prefix_append _ _)

/-- A name that no other has chooses its entry. -/
theorem flatMap_named {Entry Line : Type} {entries : List Entry} {name : Entry → Text}
    (unique : (entries.map name).Nodup) (wanted : Text) (lines : Entry → List Line) :
    (entries.flatMap fun entry => if wanted = name entry then lines entry else []) =
      ((entries.find? fun entry => name entry = wanted).map lines).getD [] := by
  induction entries with
  | nil => rfl
  | cons entry rest ih =>
      obtain ⟨fresh, unique⟩ := List.nodup_cons.mp unique
      rw [List.flatMap_cons, ih unique, List.find?_cons]
      by_cases here : name entry = wanted
      · have absent : (rest.find? fun other => name other = wanted) = none := by
          apply List.find?_eq_none.mpr
          intro other member same
          apply fresh
          rw [here, ← of_decide_eq_true same]
          exact List.mem_map_of_mem member
        simp [here, absent]
      · simp [here, Ne.symm here]

section Words
variable {table : List Module} {word module rest reg field : Text}

theorem completions_bare (plain : '.' ∉ word) :
    completions table word = (table.filter fun mx => word <+: mx.name).map moduleName := by
  rw [completions, List.count_eq_zero.mpr plain, names, List.filter_map]
  congr 1
  apply List.filter_congr
  intro mx _
  exact decide_eq_decide.mpr (prefix_terminated plain)

def inModule (rest : Text) (mx : Module) : List Text :=
  if '.' ∈ rest then
    mx.regs.flatMap fun r =>
      (r.fields.filter fun f => rest <+: r.name ++ '.' :: f.name).map (fieldName mx r)
  else (mx.regs.filter fun r => rest <+: r.name).map (regName mx)

theorem filter_if {Entry : Type} (entries : List Entry) {condition : Prop} [Decidable condition]
    (chosen : Entry → Prop) [DecidablePred chosen] :
    (entries.filter fun entry => condition ∧ chosen entry) =
      if condition then entries.filter fun entry => chosen entry else [] := by
  split
  · rename_i holds
    simp [holds]
  · rename_i fails
    simp [fails]

/-- Behind the first dot only one module is left. -/
theorem completions_named (separable : Separable table) (plain : '.' ∉ module) :
    completions table (module ++ '.' :: rest) =
      ((table.find? fun mx => mx.name = module).map (inModule rest)).getD [] := by
  rw [← flatMap_named separable.unique]
  have dots : (module ++ '.' :: rest).count '.' = rest.count '.' + 1 := by
    rw [List.count_append, List.count_eq_zero.mpr plain, List.count_cons_self, Nat.zero_add]
  rw [completions, dots]
  cases left : rest.count '.' with
  | zero =>
      have last : '.' ∉ rest := List.count_eq_zero.mp left
      rw [names, List.filter_flatMap]
      apply List.flatMap_congr
      intro mx member
      rw [List.filter_map]
      have same : (fun name => decide (module ++ '.' :: rest <+: name)) ∘ regName mx =
          fun r => decide (module = mx.name ∧ rest <+: r.name) := by
        funext r
        apply decide_eq_decide.mpr
        rw [regName, prefix_dotted plain (separable.modules mx member), prefix_terminated last]
      rw [same, filter_if, inModule, if_neg last]
      split
      · rfl
      · rfl
  | succ more =>
      have deep : names table (more + 1 + 1) = table.flatMap fun mx =>
          mx.regs.flatMap fun r => r.fields.map (fieldName mx r) := rfl
      have dot : '.' ∈ rest := List.count_pos_iff.mp (by omega)
      rw [deep, List.filter_flatMap]
      apply List.flatMap_congr
      intro mx member
      rw [List.filter_flatMap, inModule, if_pos dot]
      have same (r : Reg) :
          ((r.fields.map (fieldName mx r)).filter fun name => module ++ '.' :: rest <+: name) =
            if module = mx.name then
              (r.fields.filter fun f => rest <+: r.name ++ '.' :: f.name).map (fieldName mx r)
            else [] := by
        rw [List.filter_map]
        have one : (fun name => decide (module ++ '.' :: rest <+: name)) ∘ fieldName mx r =
            fun f => decide (module = mx.name ∧ rest <+: r.name ++ '.' :: f.name) := by
          funext f
          apply decide_eq_decide.mpr
          rw [fieldName, prefix_dotted plain (separable.modules mx member)]
        rw [one, filter_if]
        split
        · rfl
        · rfl
      simp only [same]
      split
      · rfl
      · simp

end Words

/-! ## What the program prints -/

section Prints
variable {kernel : Kernel} {table : List Module} {mx : Module} {word rest : Text}
  {inv : Tool → Prop}

/-- The register is compared in whole when a field follows it. -/
theorem yields_parseReg_completion (plain : '*' ∉ rest)
    (separable : ∀ r ∈ mx.regs, '.' ∉ r.name) :
    Yields inv (parseReg kernel true mx (cut '.' rest) (behind '.' rest)) ()
      ((inModule rest mx).map .name) := by
  rcases cut_cases '.' rest with ⟨absent, none, same⟩ | ⟨reg, field, rfl, absent, some, same⟩
  · have regs := @Yields.choose Tool Shown Stop inv Reg mx.regs (fun r => rest <+: r.name) _
      fun r => .name (regName mx r)
    have names : (inModule rest mx).map Shown.name =
        (mx.regs.filter fun r => rest <+: r.name).map fun r => Shown.name (regName mx r) := by
      rw [inModule, if_neg absent, List.map_map]
      rfl
    rw [names, none, same, parseReg, cut_eq_self plain]
    simpa only [if_true, List.isPrefixOf_iff_prefix, print] using regs
  · have dot : '.' ∈ reg ++ '.' :: field := by simp
    have front : '*' ∉ reg := fun member => plain (by simp [member])
    have back : '*' ∉ field := fun member => plain (by simp [member])
    have names : (inModule (reg ++ '.' :: field) mx).map Shown.name = mx.regs.flatMap fun r =>
        if r.name = reg then
          (r.fields.filter fun f => Meant field f.name).map fun f => Shown.name (fieldName mx r f)
        else [] := by
      rw [inModule, if_pos dot, List.map_flatMap]
      apply List.flatMap_congr
      intro r member
      rw [List.map_map]
      have chosen : (fun f : Field => decide (reg ++ '.' :: field <+: r.name ++ '.' :: f.name)) =
          fun f => decide (r.name = reg ∧ Meant field f.name) := by
        funext f
        apply decide_eq_decide.mpr
        rw [prefix_dotted absent (separable r member), Meant, cut_eq_self back, eq_comm]
      rw [chosen, filter_if]
      split
      · rfl
      · rfl
    rw [names, some, same, parseReg, cut_eq_self front]
    apply Yields.forM
    intro r _
    apply Yields.ite
    intro _
    exact @yields_parseField mx r inv true (.some field) 0

theorem yields_parseModule_completion (separable : Separable table) (typed : Typed word)
    (other : ¬ memtoolText <:+: word) :
    Yields inv (parseModule kernel table (asked word { Globals.start with gComp := 1 })) ()
      ((completions table word).map .name) := by
  rcases cut_cases '.' word with ⟨absent, none, -⟩ | ⟨module, rest, rfl, absent, some, same⟩
  · have modules := @Yields.choose Tool Shown Stop inv Module table (fun mx => word <+: mx.name) _
      fun mx => .name (moduleName mx)
    rw [completions_bare absent, List.map_map]
    by_cases empty : word = []
    · subst empty
      simpa [parseModule, asked, Globals.start, print, Function.comp_def] using modules
    · simpa [parseModule, asked, empty, extendCommand, none, Globals.start, print,
        Function.comp_def] using modules
  · have nonempty : module ≠ [] := by
      rintro rfl
      exact typed.begun rfl
    have front : '*' ∉ module := fun member => typed.star (by simp [member])
    have back : '*' ∉ rest := fun member => typed.star (by simp [member])
    have named : '=' ∉ rest := fun member => typed.equal (by simp [member])
    have word_ne : module ++ '.' :: rest ≠ [] := by simp
    rw [completions_named separable absent, asked, if_neg word_ne,
      extendCommand_names ⟨rfl, absent, other⟩ named, parseModule_naming nonempty front rest rfl]
    cases found : table.find? fun mx => mx.name = module with
    | none => exact Yields.pure ()
    | some mx =>
        have member := List.mem_of_find?_eq_some found
        have lines := @yields_parseReg_completion kernel mx rest inv back
          (separable.regs mx member)
        exact lines

/-- Step by step a word leads to every field whose name it begins. -/
theorem completions_lead (separable : Separable table) (member : mx ∈ table) {r : Reg}
    (reg : r ∈ mx.regs) {f : Field} (field : f ∈ r.fields) (begins : word <+: fieldName mx r f) :
    ∃ name ∈ completions table word, name <+: fieldName mx r f := by
  have plain := separable.modules mx member
  rcases cut_cases '.' word with ⟨absent, -⟩ | ⟨module, rest, rfl, absent, -⟩
  · refine ⟨moduleName mx, ?_, ?_⟩
    · rw [completions_bare absent]
      apply List.mem_map_of_mem
      exact List.mem_filter.mpr
        ⟨member, decide_eq_true (prefix_append_separator absent begins)⟩
    · rw [moduleName, fieldName, List.prefix_append_right_inj, List.cons_prefix_cons]
      exact ⟨rfl, List.nil_prefix⟩
  · obtain ⟨rfl, later⟩ := (prefix_dotted absent plain).mp begins
    rw [completions_named separable absent, find_module separable.unique member, Option.map_some,
      Option.getD_some, inModule]
    by_cases dot : '.' ∈ rest
    · refine ⟨fieldName mx r f, ?_, List.prefix_rfl⟩
      rw [if_pos dot]
      have chosen : f ∈ r.fields.filter fun f => rest <+: r.name ++ '.' :: f.name :=
        List.mem_filter.mpr ⟨field, decide_eq_true later⟩
      exact List.mem_flatMap.mpr ⟨r, reg, List.mem_map_of_mem chosen⟩
    · refine ⟨regName mx r, ?_, ?_⟩
      · rw [if_neg dot]
        apply List.mem_map_of_mem
        exact List.mem_filter.mpr ⟨reg, decide_eq_true (prefix_append_separator dot later)⟩
      · rw [regName, fieldName, List.prefix_append_right_inj, List.cons_prefix_cons,
          List.prefix_append_right_inj, List.cons_prefix_cons]
        exact ⟨rfl, rfl, List.nil_prefix⟩

end Prints

/-- For the command line that the shell makes, the program prints exactly the names up to the
next dot that begin with the word, once each and in the order of the table, touches neither
memory nor a mapping, and one of the names leads to each field that the word can become. -/
theorem main_completes {kernel : Kernel} {table : List Module} (separable : Separable table)
    (program : Text) {command word previous : Text} (named : memtoolText <:+: command)
    (other : ¬ memtoolText <:+: word) (typed : Typed word)
    (before : word = [] → memtoolText <:+: previous) (tool : Tool) :
    main kernel table [program, command, word, previous] tool =
        ⟨(completions table word).map .name, tool, .ok (some 0)⟩ ∧
      ∀ mx ∈ table, ∀ r ∈ mx.regs, ∀ f ∈ r.fields, word <+: fieldName mx r f →
        ∃ name ∈ completions table word, name <+: fieldName mx r f := by
  have parsed := @parseCmdline_completion program command word previous named other before
  have comp : (asked word { Globals.start with gComp := 1 }).gComp ≠ 0 := by
    rw [asked]
    split
    · exact one_ne_zero
    · rw [extendCommand_gComp]
      exact one_ne_zero
  constructor
  · rw [main_parsed parsed (.inr comp)]
    have lines := @yields_parseModule_completion kernel table word (· = tool) separable typed other
    have all : Yields (· = tool) (parseModule kernel table
        (asked word { Globals.start with gComp := 1 }) >>= fun _ => pure (some (0 : Int))) _ _ :=
      lines.bind (Yields.pure (some 0))
    obtain ⟨next, run, same⟩ := all tool rfl
    rw [run, same, List.append_nil]
  · intro mx member r reg f field begins
    exact completions_lead separable member reg field begins

theorem oneModule_separable : Separable RegisterWrite.oneModule :=
  ⟨by decide, by decide, by decide⟩

/-- `memtool UART.U` becomes `memtool UART.UCR.`. -/
theorem main_completes_register :
    completions RegisterWrite.oneModule ['U', 'A', 'R', 'T', '.', 'U'] =
        [['U', 'A', 'R', 'T', '.', 'U', 'C', 'R', '.']] ∧
      main plainKernel RegisterWrite.oneModule
          [memtoolText, memtoolText, ['U', 'A', 'R', 'T', '.', 'U'], memtoolText]
          (.start fun _ => 0) =
        ⟨(completions RegisterWrite.oneModule ['U', 'A', 'R', 'T', '.', 'U']).map .name,
          .start fun _ => 0, .ok (some 0)⟩ :=
  ⟨by decide,
    (main_completes oneModule_separable memtoolText List.infix_rfl (by decide)
      ⟨by decide, by decide, by decide⟩ (fun _ => List.infix_rfl) (.start fun _ => 0)).1⟩

end ImxTest.Memtool.Query
