import Mathlib.Data.List.TakeWhile
import ImxTest.Lib.CString
import ImxTest.Lib.Tokens

/-!
# Splitting the command line

`get_arg` terminates the tokens of a line in place and stores a pointer to each.  A
pointer into the line is an offset, and `none` is `NULL`; a read behind the end of the
array has no result.
-/

set_option autoImplicit false

namespace ImxTest.Vpu.GetArg

open ImxTest.Lib.CString
open ImxTest.Lib.Tokens

structure Cursor where
  buf : Text
  ptr : Nat

namespace Cursor

/-- `*ptr`. -/
def char (cursor : Cursor) : Option Char :=
  cursor.buf[cursor.ptr]?

def advance (going : Char → Bool) : Text → Nat → Option Nat
  | [], _ => none
  | c :: rest, ptr => if going c then advance going rest (ptr + 1) else some ptr

def scan (going : Char → Bool) (cursor : Cursor) : Option Cursor :=
  (advance going (cursor.buf.drop cursor.ptr) cursor.ptr).map fun ptr =>
    { cursor with ptr := ptr }

/-- `if (*ptr != '\0') *ptr++ = '\0'`. -/
def terminate (cursor : Cursor) : Option Cursor :=
  cursor.char.map fun c =>
    if c ≠ '\x00' then ⟨cursor.buf.set cursor.ptr '\x00', cursor.ptr + 1⟩ else cursor

end Cursor

def isSeparator (c : Char) : Bool :=
  c = ' ' || c = '\t' || c = '\n'

def inQuotes (c : Char) : Bool :=
  c ≠ '"' && c ≠ '\x00' && c ≠ '\n'

def inWord (c : Char) : Bool :=
  c ≠ ' ' && c ≠ '\t' && c ≠ '\x00' && c ≠ '\n'

/-- The `switch` of `skip`. -/
def leaveToken (cursor : Cursor) (c : Char) : Option Cursor :=
  if c = '\x00' || isSeparator c then some cursor
  else if c = '"' then
    (Cursor.scan inQuotes { cursor with ptr := cursor.ptr + 1 }).bind Cursor.terminate
  else (Cursor.scan inWord cursor).bind Cursor.terminate

def skip (cursor : Cursor) : Option Cursor :=
  cursor.char.bind fun c => (leaveToken cursor c).bind (Cursor.scan isSeparator)

/-- `stored` lists the places of `argv` that were written. -/
structure Args where
  cursor : Cursor
  argc : Nat
  argv : Nat → Option Nat
  stored : List Nat

def Args.store (args : Args) (i : Nat) (pointer : Option Nat) : Args :=
  { args with
    argv := fun j => if j = i then pointer else args.argv j
    stored := args.stored ++ [i] }

/-- A turn of the loop after `*ptr` was found to be a character. -/
def Args.take (args : Args) (c : Char) (next : Cursor) : Args :=
  { args.store args.argc (some (args.cursor.ptr + if c = '"' then 1 else 0)) with
    cursor := next
    argc := args.argc + 1 }

/-- The loop, with the number of turns that `*argc < 32` still allows. -/
def getArgLoop : Nat → Args → Option Args
  | 0, args => some args
  | turns + 1, args =>
      args.cursor.char.bind fun c =>
        if c = '\x00' then some args
        else (skip args.cursor).bind fun next => getArgLoop turns (args.take c next)

def isBlank (c : Char) : Bool :=
  c = ' ' || c = '\t'

def maxArgs : Nat := 32

def getArg (buf : Text) (argv : Nat → Option Nat) : Option Args :=
  (Cursor.scan isBlank ⟨buf, 0⟩).bind fun cursor =>
    (getArgLoop maxArgs ⟨cursor, 0, argv, []⟩).map fun args => args.store args.argc none

def lexicon : Lexicon Char where
  separates c := c = ' ' || c = '\t' || c = '\n'
  opens c := c = '"'
  closes c := c = '"' || c = '\n'

def tokens (line : Text) : List Text :=
  split lexicon line

/-- What `get_arg` counts: a newline that is the first character but blanks is taken for
a token. -/
def counted (line : Text) : Nat :=
  (tokens line).length + if (line.dropWhile isBlank).head? = some '\n' then 1 else 0

/-- The string at an offset, if it is terminated inside the array. -/
def stringAt (buf : Text) (pointer : Nat) : Option Text :=
  terminated (buf.drop pointer)

/-! ## The pointer between what was read and what follows -/

theorem dropWhile_head {going : Char → Bool} {text : Text} {c : Char}
    (head : c ∈ (text.dropWhile going).head?) : going c = false := by
  have ends := List.head?_dropWhile_not going text
  rw [Option.mem_def.mp head] at ends
  simpa using ends

theorem dropWhile_clean {going : Char → Bool} {text : Text} (clean : '\x00' ∉ text) :
    '\x00' ∉ text.dropWhile going :=
  fun member => clean ((List.dropWhile_suffix going).subset member)

/-- The pointer stands behind `front`. -/
def Cursor.between (front rest : Text) : Cursor :=
  ⟨front ++ rest, front.length⟩

namespace Cursor

theorem char_between (front rest : Text) (c : Char) :
    (between front (c :: rest)).char = some c := by
  simp [char, between]

theorem advance_append {going : Char → Bool} {word : Text} (inside : ∀ c ∈ word, going c = true)
    {c : Char} (stops : going c = false) (rest : Text) (ptr : Nat) :
    advance going (word ++ c :: rest) ptr = some (ptr + word.length) := by
  induction word generalizing ptr with
  | nil => simp [advance, stops]
  | cons d word ih =>
      rw [List.cons_append, advance, if_pos (inside d List.mem_cons_self),
        ih fun d member => inside d (List.mem_cons_of_mem _ member), List.length_cons]
      congr 1
      omega

theorem scan_between {going : Char → Bool} {word : Text} (inside : ∀ c ∈ word, going c = true)
    {c : Char} (stops : going c = false) (front rest : Text) :
    scan going (between front (word ++ c :: rest)) =
      some (between (front ++ word) (c :: rest)) := by
  have here : (front ++ (word ++ c :: rest)).drop front.length = word ++ c :: rest :=
    List.drop_left
  rw [scan, between, here, advance_append inside stops]
  simp [between]

theorem terminate_between {c : Char} (other : c ≠ '\x00') (front rest : Text) :
    terminate (between front (c :: rest)) = some (between (front ++ ['\x00']) rest) := by
  rw [terminate, char_between, Option.map_some, if_pos other]
  simp [between]

theorem terminate_between_zero (front rest : Text) :
    terminate (between front ('\x00' :: rest)) = some (between front ('\x00' :: rest)) := by
  rw [terminate, char_between, Option.map_some, if_neg (not_not_intro rfl)]

/-- Over a text whose terminator ends the loop at the latest. -/
theorem scan_text {going : Char → Bool} (stops : going '\x00' = false)
    (front text behind : Text) :
    scan going (between front (text ++ '\x00' :: behind)) =
      some (between (front ++ text.takeWhile going)
        (text.dropWhile going ++ '\x00' :: behind)) := by
  have inside : ∀ c ∈ text.takeWhile going, going c = true := fun c => List.mem_takeWhile_imp
  have whole : text.takeWhile going ++ text.dropWhile going = text :=
    List.takeWhile_append_dropWhile
  cases rest : text.dropWhile going with
  | nil =>
      rw [rest, List.append_nil] at whole
      nth_rewrite 1 [← whole]
      exact scan_between inside stops front behind
  | cons c more =>
      have ends : going c = false := @dropWhile_head going text c (by rw [rest]; rfl)
      rw [rest] at whole
      nth_rewrite 1 [← whole]
      rw [List.append_assoc, List.cons_append]
      exact scan_between inside ends front (more ++ '\x00' :: behind)

end Cursor

/-! ## One token -/

/-- What is left in the place of the symbol that ended a token and of the separators
behind it. -/
def ending : Text → Text
  | [] => []
  | _ :: more => '\x00' :: more.takeWhile isSeparator

def following (after : Text) : Text :=
  skipGap lexicon (after.drop 1)

theorem ending_length (after : Text) :
    (ending after).length + (following after).length = after.length := by
  cases after with
  | nil => rfl
  | cons c more =>
      have whole : more.takeWhile isSeparator ++ more.dropWhile isSeparator = more :=
        List.takeWhile_append_dropWhile
      have lengths := congrArg List.length whole
      rw [List.length_append] at lengths
      change (more.takeWhile isSeparator).length + 1 + (more.dropWhile isSeparator).length = _
      rw [List.length_cons]
      omega

theorem finish_token {after : Text} (clean : '\x00' ∉ after) (front behind : Text) :
    ((Cursor.between front (after ++ '\x00' :: behind)).terminate).bind
        (Cursor.scan isSeparator) =
      some (Cursor.between (front ++ ending after) (following after ++ '\x00' :: behind)) := by
  cases after with
  | nil =>
      rw [List.nil_append, Cursor.terminate_between_zero, Option.bind_some]
      exact Cursor.scan_text rfl front [] behind
  | cons c more =>
      have other : c ≠ '\x00' := (List.ne_of_not_mem_cons clean).symm
      rw [List.cons_append, Cursor.terminate_between other, Option.bind_some,
        Cursor.scan_text rfl, List.append_assoc]
      rfl

/-- One call of `skip` at a token: `lead` is its quote, if it has one. -/
structure Taken (c : Char) (text front behind lead word after : Text) : Prop where
  lead_length : lead.length = if c = '"' then 1 else 0
  text_eq : text = lead ++ word ++ after
  next : skip (Cursor.between front (text ++ '\x00' :: behind)) =
    some (Cursor.between (front ++ (lead ++ word ++ ending after))
      (following after ++ '\x00' :: behind))
  first : tokens text = word :: tokens (following after)

/-- The loops of `skip` stop where the reference split ends the token. -/
theorem splitFrom_going {going : Char → Bool} {quoted : Bool}
    (same : ∀ c, c ≠ '\x00' → going c = !lexicon.ends quoted c) {body : Text}
    (clean : '\x00' ∉ body) (read : Text) :
    splitFrom lexicon (.token quoted read) body =
      (read ++ body.takeWhile going) :: tokens (following (body.dropWhile going)) := by
  have inside : ∀ c ∈ body.takeWhile going, lexicon.ends quoted c = false := by
    intro c member
    have goes := List.mem_takeWhile_imp member
    have known : c ∈ body := (List.takeWhile_prefix going).subset member
    rw [same c fun zero => clean (zero ▸ known)] at goes
    simpa using goes
  have ends : ∀ c ∈ (body.dropWhile going).head?, lexicon.ends quoted c = true := by
    intro c head
    have stops := dropWhile_head head
    have known : c ∈ body :=
      (List.dropWhile_suffix going).subset (List.mem_of_mem_head? head)
    rw [same c fun zero => clean (zero ▸ known)] at stops
    simpa using stops
  have whole : body.takeWhile going ++ body.dropWhile going = body :=
    List.takeWhile_append_dropWhile
  nth_rewrite 1 [← whole]
  rw [splitFrom_token quoted _ read inside, splitFrom_token_rest quoted _ _ ends, tokens,
    following, split_skipGap]

theorem inQuotes_eq (c : Char) (other : c ≠ '\x00') : inQuotes c = !lexicon.ends true c := by
  simp [inQuotes, Lexicon.ends, lexicon, other]

theorem inWord_eq (c : Char) (other : c ≠ '\x00') : inWord c = !lexicon.ends false c := by
  simp [inWord, Lexicon.ends, lexicon, other, Bool.and_assoc]

section Token
variable {body : Text}

theorem taken_quoted (clean : '\x00' ∉ body) (front behind : Text) :
    Taken '"' ('"' :: body) front behind ['"'] (body.takeWhile inQuotes)
      (body.dropWhile inQuotes) where
  lead_length := rfl
  text_eq := by
    rw [List.append_assoc, List.takeWhile_append_dropWhile]
    rfl
  next := by
    have moved : { Cursor.between front ('"' :: body ++ '\x00' :: behind) with
        ptr := (Cursor.between front ('"' :: body ++ '\x00' :: behind)).ptr + 1 } =
        Cursor.between (front ++ ['"']) (body ++ '\x00' :: behind) := by
      simp [Cursor.between]
    have rest : '\x00' ∉ body.dropWhile inQuotes := dropWhile_clean clean
    rw [skip, List.cons_append, Cursor.char_between, Option.bind_some, leaveToken,
      if_neg (by decide), if_pos rfl, ← List.cons_append, moved, Cursor.scan_text rfl,
      Option.bind_some, finish_token rest]
    simp only [List.append_assoc]
  first := by
    rw [tokens, split, splitFrom, if_neg (by decide), if_pos (by decide),
      splitFrom_going inQuotes_eq clean, List.nil_append]

theorem taken_plain {c : Char} (other : c ≠ '"') (solid : isSeparator c = false)
    (clean : '\x00' ∉ c :: body) (front behind : Text) :
    Taken c (c :: body) front behind [] (c :: body.takeWhile inWord)
      (body.dropWhile inWord) where
  lead_length := by rw [if_neg other, List.length_nil]
  text_eq := by
    rw [List.nil_append, List.cons_append, List.takeWhile_append_dropWhile]
  next := by
    have zero : c ≠ '\x00' := (List.ne_of_not_mem_cons clean).symm
    have goes : inWord c = true := by
      rw [inWord_eq c zero]
      simpa [Lexicon.ends, lexicon, isSeparator] using solid
    have rest : '\x00' ∉ body.dropWhile inWord :=
      dropWhile_clean (List.not_mem_of_not_mem_cons clean)
    have taken : (c :: body).takeWhile inWord = c :: body.takeWhile inWord :=
      List.takeWhile_cons_of_pos goes
    have dropped : (c :: body).dropWhile inWord = body.dropWhile inWord :=
      List.dropWhile_cons_of_pos goes
    rw [skip, List.cons_append, Cursor.char_between, Option.bind_some, leaveToken,
      if_neg (by simp [zero, solid]), if_neg other, ← List.cons_append, Cursor.scan_text rfl,
      taken, dropped, Option.bind_some, finish_token rest]
    simp only [List.append_assoc, List.nil_append]
  first := by
    have opens : ¬ lexicon.opens c = true := by simpa [lexicon] using other
    have separates : ¬ lexicon.separates c = true := by
      change ¬ isSeparator c = true
      rw [solid]
      exact Bool.false_ne_true
    have rest : '\x00' ∉ body := List.not_mem_of_not_mem_cons clean
    rw [tokens, split, splitFrom, if_neg separates, if_neg opens,
      splitFrom_going inWord_eq rest, List.singleton_append]

theorem skip_token {c : Char} (solid : isSeparator c = false) (clean : '\x00' ∉ c :: body)
    (front behind : Text) :
    ∃ lead word after, Taken c (c :: body) front behind lead word after := by
  by_cases quote : c = '"'
  · subst quote
    have rest : '\x00' ∉ body := List.not_mem_of_not_mem_cons clean
    exact ⟨_, _, _, taken_quoted rest front behind⟩
  · exact ⟨_, _, _, taken_plain quote solid clean front behind⟩

end Token

/-! ## The loop -/

/-- From a pointer that stands at the first token of `text`. -/
structure Outcome (turns : Nat) (front text behind : Text) (args final : Args) : Prop where
  kept : ∃ changed, changed.length = text.length ∧
    final.cursor.buf = front ++ (changed ++ '\x00' :: behind)
  argc : final.argc = args.argc + min turns (tokens text).length
  stored : final.stored = args.stored ++ List.range' args.argc (min turns (tokens text).length)
  earlier : ∀ i < args.argc, final.argv i = args.argv i
  strings : ∀ k < min turns (tokens text).length,
    (final.argv (args.argc + k)).bind (stringAt final.cursor.buf) = (tokens text)[k]?

theorem outcome_idle {turns : Nat} {front text behind : Text} {args : Args}
    (placed : args.cursor = Cursor.between front (text ++ '\x00' :: behind))
    (idle : min turns (tokens text).length = 0) :
    Outcome turns front text behind args args where
  kept := ⟨text, rfl, by rw [placed]; rfl⟩
  argc := by rw [idle, Nat.add_zero]
  stored := by rw [idle, List.range'_zero, List.append_nil]
  earlier := fun _ _ => rfl
  strings := by
    intro k small
    rw [idle] at small
    exact absurd small (Nat.not_lt_zero k)

/-- The token of a turn is terminated by what `skip` writes, or by the end of the line. -/
theorem Taken.stringAt {c : Char} {text front behind lead word after changed buf : Text}
    (taken : Taken c text front behind lead word after) (clean : '\x00' ∉ text)
    (length : changed.length = (following after).length)
    (kept : buf = front ++ (lead ++ word ++ ending after) ++ (changed ++ '\x00' :: behind)) :
    stringAt buf (front.length + lead.length) = some word := by
  have tail : ∃ rest, ending after ++ (changed ++ '\x00' :: behind) = '\x00' :: rest := by
    cases after with
    | nil =>
        have empty : changed = [] := List.eq_nil_of_length_eq_zero length
        exact ⟨behind, by rw [empty]; rfl⟩
    | cons d more => exact ⟨_, rfl⟩
  obtain ⟨rest, tail⟩ := tail
  have shape : buf = (front ++ lead) ++ (word ++ '\x00' :: rest) := by
    rw [kept, ← tail]
    simp only [List.append_assoc]
  have word_clean : '\x00' ∉ word := by
    intro member
    apply clean
    rw [taken.text_eq]
    simp [member]
  rw [GetArg.stringAt, shape, ← List.length_append, List.drop_left,
    terminated_append word_clean]

theorem Taken.outcome {turns : Nat} {c : Char} {text front behind lead word after : Text}
    (taken : Taken c text front behind lead word after) (clean : '\x00' ∉ text)
    {args final : Args} {next : Cursor}
    (placed : args.cursor = Cursor.between front (text ++ '\x00' :: behind))
    (later : Outcome turns (front ++ (lead ++ word ++ ending after)) (following after) behind
      (args.take c next) final) :
    Outcome (turns + 1) front text behind args final := by
  have count : min (turns + 1) (tokens text).length =
      min turns (tokens (following after)).length + 1 := by
    rw [taken.first, List.length_cons, Nat.add_min_add_right]
  obtain ⟨changed, length, kept⟩ := later.kept
  have first : final.argv args.argc = some (front.length + lead.length) := by
    rw [later.earlier args.argc (Nat.lt_succ_self _), taken.lead_length]
    simp [Args.take, Args.store, placed, Cursor.between]
  constructor
  · refine ⟨lead ++ word ++ ending after ++ changed, ?_, ?_⟩
    · have total := ending_length after
      rw [taken.text_eq]
      simp only [List.length_append]
      omega
    · rw [kept]
      simp only [List.append_assoc]
  · rw [later.argc, count]
    change args.argc + 1 + _ = _
    omega
  · rw [later.stored, count, List.range'_succ]
    change args.stored ++ [args.argc] ++ _ = _
    rw [List.append_assoc]
    rfl
  · intro i small
    rw [later.earlier i (Nat.lt_succ_of_lt small)]
    exact if_neg (Nat.ne_of_lt small)
  · intro k small
    cases k with
    | zero =>
        rw [Nat.add_zero, first, Option.bind_some, taken.stringAt clean length kept, taken.first]
        rfl
    | succ k =>
        have string := later.strings k (by omega)
        rw [taken.first, List.getElem?_cons_succ, ← string]
        change (final.argv (args.argc + (k + 1))).bind _ = (final.argv (args.argc + 1 + k)).bind _
        rw [Nat.add_assoc, Nat.add_comm 1 k]

theorem following_head {after : Text} {c : Char} (head : c ∈ (following after).head?) :
    isSeparator c = false :=
  dropWhile_head head

theorem Taken.following_clean {c : Char} {text front behind lead word after : Text}
    (taken : Taken c text front behind lead word after) (clean : '\x00' ∉ text) :
    '\x00' ∉ following after := by
  intro member
  have inside : '\x00' ∈ after :=
    (List.drop_suffix 1 after).subset ((List.dropWhile_suffix _).subset member)
  apply clean
  rw [taken.text_eq]
  exact List.mem_append_right _ inside

/-- By induction on the turns that are left. -/
theorem getArgLoop_outcome (turns : Nat) {front text behind : Text} {args : Args}
    (clean : '\x00' ∉ text) (solid : ∀ c ∈ text.head?, isSeparator c = false)
    (placed : args.cursor = Cursor.between front (text ++ '\x00' :: behind)) :
    ∃ final, getArgLoop turns args = some final ∧
      Outcome turns front text behind args final := by
  induction turns generalizing front text args with
  | zero => exact ⟨args, rfl, outcome_idle placed (Nat.zero_min _)⟩
  | succ turns ih =>
      cases text with
      | nil =>
          have ended : getArgLoop (turns + 1) args = some args := by
            rw [getArgLoop, placed, List.nil_append, Cursor.char_between, Option.bind_some,
              if_pos rfl]
          exact ⟨args, ended, outcome_idle placed (Nat.min_zero _)⟩
      | cons c body =>
          have zero : c ≠ '\x00' := (List.ne_of_not_mem_cons clean).symm
          obtain ⟨lead, word, after, taken⟩ := skip_token (solid c rfl) clean front behind
          obtain ⟨final, run, later⟩ :=
            @ih _ _ (args.take c (Cursor.between (front ++ (lead ++ word ++ ending after))
              (following after ++ '\x00' :: behind)))
              (taken.following_clean clean) (fun c => following_head) rfl
          refine ⟨final, ?_, taken.outcome clean placed later⟩
          rw [getArgLoop, placed, List.cons_append, Cursor.char_between, Option.bind_some,
            if_neg zero, ← List.cons_append, taken.next, Option.bind_some]
          exact run

/-! ## The whole line -/

theorem isSeparator_of_isBlank {c : Char} (blank : isBlank c = true) :
    isSeparator c = true := by
  rw [isBlank] at blank
  rw [isSeparator, blank, Bool.true_or]

theorem skipGap_dropWhile_isBlank (line : Text) :
    skipGap lexicon (line.dropWhile isBlank) = skipGap lexicon line := by
  induction line with
  | nil => rfl
  | cons c line ih =>
      by_cases blank : isBlank c = true
      · have separates : lexicon.separates c = true := isSeparator_of_isBlank blank
        rw [List.dropWhile_cons_of_pos blank, ih, skipGap, skipGap,
          List.dropWhile_cons_of_pos separates]
      · rw [List.dropWhile_cons_of_neg blank]

theorem tokens_dropWhile_isBlank (line : Text) :
    tokens (line.dropWhile isBlank) = tokens line := by
  rw [tokens, ← split_skipGap, skipGap_dropWhile_isBlank, split_skipGap]
  rfl

section Line
variable {line : Text} (behind : Text) (argv : Nat → Option Nat)

def start (line behind : Text) (argv : Nat → Option Nat) : Args :=
  ⟨Cursor.between (line.takeWhile isBlank) (line.dropWhile isBlank ++ '\x00' :: behind), 0, argv,
    []⟩

theorem getArg_eq :
    getArg (line ++ '\x00' :: behind) argv =
      (getArgLoop maxArgs (start line behind argv)).map fun args => args.store args.argc none := by
  have begins : (⟨line ++ '\x00' :: behind, 0⟩ : Cursor) =
      Cursor.between [] (line ++ '\x00' :: behind) := rfl
  rw [getArg, begins, Cursor.scan_text rfl, Option.bind_some, List.nil_append]
  rfl

theorem dropWhile_isBlank_solid (other : (line.dropWhile isBlank).head? ≠ some '\n') :
    ∀ c ∈ (line.dropWhile isBlank).head?, isSeparator c = false := by
  intro c head
  have solid : isBlank c = false := dropWhile_head head
  have newline : c ≠ '\n' := by
    rintro rfl
    exact other head
  rw [isBlank] at solid
  rw [isSeparator, solid, Bool.false_or]
  exact decide_eq_false newline

/-- Where the first character that is no blank is a newline, the first turn takes it for
a token and goes on at the first token behind it. -/
theorem getArgLoop_newline (clean : '\x00' ∉ line)
    (newline : (line.dropWhile isBlank).head? = some '\n') :
    ∃ final next, getArgLoop maxArgs (start line behind argv) = some final ∧
      ∃ front, Outcome 31 front (skipGap lexicon line) behind
        ((start line behind argv).take '\n' next) final := by
  obtain ⟨more, text⟩ : ∃ more, line.dropWhile isBlank = '\n' :: more := by
    cases rest : line.dropWhile isBlank with
    | nil => simp [rest] at newline
    | cons c more =>
        rw [rest] at newline
        exact ⟨more, by rw [Option.some.inj newline]⟩
  have gap : (line.dropWhile isBlank).dropWhile isSeparator = skipGap lexicon line :=
    skipGap_dropWhile_isBlank line
  have skipped : skip (start line behind argv).cursor =
      some (Cursor.between
        (line.takeWhile isBlank ++ (line.dropWhile isBlank).takeWhile isSeparator)
        (skipGap lexicon line ++ '\x00' :: behind)) := by
    rw [← gap, ← Cursor.scan_text rfl, start, skip, text, List.cons_append, Cursor.char_between]
    rfl
  obtain ⟨final, run, outcome⟩ :=
    @getArgLoop_outcome 31 _ _ behind ((start line behind argv).take '\n' _)
      (dropWhile_clean clean) (fun c => dropWhile_head) rfl
  refine ⟨final, _, ?_, _, outcome⟩
  have char : (start line behind argv).cursor.char = some '\n' := by
    rw [start, text, List.cons_append, Cursor.char_between]
  rw [maxArgs, getArgLoop, char, Option.bind_some, if_neg (by decide), skipped, Option.bind_some]
  exact run

theorem getArg_stored (clean : '\x00' ∉ line) :
    ∃ result, getArg (line ++ '\x00' :: behind) argv = some result ∧
      result.stored = List.range (min maxArgs (counted line) + 1) := by
  by_cases newline : (line.dropWhile isBlank).head? = some '\n'
  · obtain ⟨final, next, run, front, outcome⟩ := getArgLoop_newline behind argv clean newline
    refine ⟨final.store final.argc none, by rw [getArg_eq, run]; rfl, ?_⟩
    have count : min maxArgs (counted line) =
        min 31 (tokens (skipGap lexicon line)).length + 1 := by
      rw [counted, if_pos newline, tokens, tokens, split_skipGap, maxArgs,
        ← Nat.add_min_add_right]
    have stored := outcome.stored
    have argc := outcome.argc
    change final.stored = [0] ++ List.range' 1 _ at stored
    change final.argc = 1 + _ at argc
    rw [count, List.range_succ, List.range_eq_range', List.range'_succ]
    change final.stored ++ [final.argc] = _
    rw [stored, argc, Nat.add_comm 1]
    rfl
  · obtain ⟨final, run, outcome⟩ :=
      @getArgLoop_outcome maxArgs _ _ behind (start line behind argv) (dropWhile_clean clean)
        (dropWhile_isBlank_solid newline) rfl
    refine ⟨final.store final.argc none, by rw [getArg_eq, run]; rfl, ?_⟩
    have count : min maxArgs (tokens (line.dropWhile isBlank)).length =
        min maxArgs (counted line) := by
      rw [counted, if_neg newline, tokens_dropWhile_isBlank, Nat.add_zero]
    have stored := outcome.stored
    have argc := outcome.argc
    change final.stored = [] ++ List.range' 0 _ at stored
    change final.argc = 0 + _ at argc
    change final.stored ++ [final.argc] = _
    rw [stored, argc, count, List.nil_append, Nat.zero_add, List.range_succ,
      List.range_eq_range']

/-- What the arguments are to be: the strings at `argv` are the tokens, in the line's own
place, and `NULL` follows them. -/
structure Splits (line behind : Text) (result : Args) : Prop where
  argc : result.argc = (tokens line).length
  strings : ∀ i < result.argc,
    (result.argv i).bind (stringAt result.cursor.buf) = (tokens line)[i]?
  ends : result.argv result.argc = none
  in_place : ∃ changed, changed.length = line.length ∧
    result.cursor.buf = changed ++ '\x00' :: behind

theorem getArg_splits (clean : '\x00' ∉ line) (few : (tokens line).length < maxArgs)
    (first : (line.dropWhile isBlank).head? ≠ some '\n') :
    ∃ result, getArg (line ++ '\x00' :: behind) argv = some result ∧
      Splits line behind result := by
  obtain ⟨final, run, outcome⟩ :=
    @getArgLoop_outcome maxArgs _ _ behind (start line behind argv) (dropWhile_clean clean)
      (dropWhile_isBlank_solid first) rfl
  have count : min maxArgs (tokens (line.dropWhile isBlank)).length = (tokens line).length := by
    rw [tokens_dropWhile_isBlank, Nat.min_eq_right few.le]
  have argc : final.argc = (tokens line).length := by
    rw [outcome.argc, count]
    exact Nat.zero_add _
  refine ⟨final.store final.argc none, by rw [getArg_eq, run]; rfl, argc, ?_, if_pos rfl, ?_⟩
  · intro i small
    change i < final.argc at small
    rw [argc] at small
    have string := outcome.strings i (by rw [count]; exact small)
    change (final.argv (0 + i)).bind _ = _ at string
    rw [Nat.zero_add, tokens_dropWhile_isBlank] at string
    rw [← string]
    change (if i = final.argc then none else final.argv i).bind _ = _
    rw [if_neg (by omega)]
    rfl
  · obtain ⟨changed, length, kept⟩ := outcome.kept
    refine ⟨line.takeWhile isBlank ++ changed, ?_, ?_⟩
    · have whole : line.takeWhile isBlank ++ line.dropWhile isBlank = line :=
        List.takeWhile_append_dropWhile
      rw [List.length_append, length, ← List.length_append, whole]
    · change final.cursor.buf = _
      rw [kept, List.append_assoc]

end Line

/-- `a "b c"d "" "e` -/
def sample : Text :=
  ['a', ' ', '"', 'b', ' ', 'c', '"', 'd', ' ', '"', '"', '\t', '"', 'e']

theorem getArg_splits_sample :
    tokens sample = [['a'], ['b', ' ', 'c'], ['d'], [], ['e']] ∧
      ∃ result, getArg (sample ++ ['\x00']) (fun _ => none) = some result ∧
        Splits sample [] result :=
  ⟨by decide +kernel,
    getArg_splits [] (fun _ => none) (by decide) (by decide +kernel) (by decide)⟩

theorem getArg_inside_iff {line : Text} (behind : Text) (argv : Nat → Option Nat)
    (clean : '\x00' ∉ line) :
    ∃ result, getArg (line ++ '\x00' :: behind) argv = some result ∧
      ((∀ i ∈ result.stored, i < maxArgs) ↔ counted line < maxArgs) := by
  obtain ⟨result, run, stored⟩ := getArg_stored behind argv clean
  refine ⟨result, run, ?_⟩
  rw [stored]
  constructor
  · intro inside
    have last := inside (min maxArgs (counted line)) (List.mem_range.mpr (Nat.lt_succ_self _))
    omega
  · intro few i member
    have small := List.mem_range.mp member
    omega

theorem getArg_inside_iff_sample :
    ∃ result, getArg (sample ++ ['\x00']) (fun _ => none) = some result ∧
      ((∀ i ∈ result.stored, i < maxArgs) ↔ counted sample < maxArgs) :=
  getArg_inside_iff [] (fun _ => none) (by decide)

def crowded : Text :=
  (List.replicate 31 ['a', ' ']).flatten ++ ['a']

theorem getArg_crowded_outside :
    ¬ ∃ result, getArg (crowded ++ ['\x00']) (fun _ => none) = some result ∧
      ∀ i ∈ result.stored, i < maxArgs := by
  rintro ⟨result, run, inside⟩
  obtain ⟨other, same, stored⟩ := @getArg_stored crowded [] (fun _ => none) (by decide +kernel)
  rw [run] at same
  cases Option.some.inj same
  have count : counted crowded = 32 := by decide +kernel
  rw [count] at stored
  have outside : 32 ∈ result.stored := by
    rw [stored]
    decide
  exact absurd (inside 32 outside) (by decide)

end ImxTest.Vpu.GetArg
