import ImxTest.Lib.CString

/-!
# The lines of the configuration file

`parse_options` looks for its keywords one after the other anywhere in the line and
takes what stands behind the first `=` for the value.  A value may therefore hold a
keyword that is looked for before the key of its line.
-/

set_option autoImplicit false

namespace ImxTest.Vpu.ParseOptions

open ImxTest.Lib.CString

def maxPath : Nat := 256

def pathFile : Int := 1

def pathNet : Int := 2

/-- The fields of `struct cmd_line` that `parse_options` sets. -/
structure CmdLine where
  input : Fin maxPath → Char
  output : Fin maxPath → Char
  srcScheme : Int
  dstScheme : Int
  width : Int
  height : Int
  format : Int
  deblockEn : Int
  deringEn : Int
  rotEn : Int
  extRotEn : Int
  rotAngle : Int
  mirror : Int
  chromaInterleave : Int
  bitrate : Int
  gop : Int
  count : Int
  prescan : Int
  bsMode : Int
  /-- A `u16`. -/
  port : Int
  mp4H264Class : Int
  quantParam : Int

/-- What `parse_options` may change: the command line and `*mode`. -/
structure Settings where
  cmd : CmdLine
  mode : Int

inductive Key where
  | operation | input | output | port | format | rotation | extRot | ip | count
  | chromaInterleave | mp4Class | deblock | dering | mirror | width | height | bitrate
  | prescan | gop | quantParam
  deriving DecidableEq, Repr

namespace Key

def text : Key → Text
  | .operation => ['o', 'p', 'e', 'r', 'a', 't', 'i', 'o', 'n']
  | .input => ['i', 'n', 'p', 'u', 't']
  | .output => ['o', 'u', 't', 'p', 'u', 't']
  | .port => ['p', 'o', 'r', 't']
  | .format => ['f', 'o', 'r', 'm', 'a', 't']
  | .rotation => ['r', 'o', 't', 'a', 't', 'i', 'o', 'n']
  | .extRot => ['e', 'x', 't', '_', 'r', 'o', 't']
  | .ip => ['i', 'p']
  | .count => ['c', 'o', 'u', 'n', 't']
  | .chromaInterleave =>
      ['c', 'h', 'r', 'o', 'm', 'a', 'I', 'n', 't', 'e', 'r', 'l', 'e', 'a', 'v', 'e']
  | .mp4Class => ['m', 'p', '4', 'C', 'l', 'a', 's', 's']
  | .deblock => ['d', 'e', 'b', 'l', 'o', 'c', 'k']
  | .dering => ['d', 'e', 'r', 'i', 'n', 'g']
  | .mirror => ['m', 'i', 'r', 'r', 'o', 'r']
  | .width => ['w', 'i', 'd', 't', 'h']
  | .height => ['h', 'e', 'i', 'g', 'h', 't']
  | .bitrate => ['b', 'i', 't', 'r', 'a', 't', 'e']
  | .prescan => ['p', 'r', 'e', 's', 'c', 'a', 'n']
  | .gop => ['g', 'o', 'p']
  | .quantParam => ['q', 'u', 'a', 'n', 't', 'P', 'a', 'r', 'a', 'm']

/-- In the order in which they are looked for. -/
def all : List Key :=
  [.operation, .input, .output, .port, .format, .rotation, .extRot, .ip, .count,
    .chromaInterleave, .mp4Class, .deblock, .dering, .mirror, .width, .height, .bitrate,
    .prescan, .gop, .quantParam]

/-- `strtol(str, NULL, 10)`; a `long` is an `int`. -/
def number (str : Text) : Int :=
  strtol 32 str

/-- What is assigned from a value that is not empty. -/
def assign (key : Key) (str : Text) (settings : Settings) : Settings :=
  let cmd := settings.cmd
  match key with
  | .operation => { settings with mode := number str }
  | .input =>
      { settings with
        cmd := { cmd with input := strncpy cmd.input str maxPath, srcScheme := pathFile } }
  | .output =>
      { settings with
        cmd := { cmd with output := strncpy cmd.output str maxPath, dstScheme := pathFile } }
  | .port => { settings with cmd := { cmd with port := number str % 2 ^ 16 } }
  | .format => { settings with cmd := { cmd with format := number str } }
  | .rotation => { settings with cmd := { cmd with rotEn := 1, rotAngle := number str } }
  | .extRot =>
      { settings with
        cmd := { cmd with
          extRotEn := number str
          rotEn := if number str = 1 then 0 else cmd.rotEn } }
  | .ip =>
      { settings with
        cmd := { cmd with output := strncpy cmd.output str 64, dstScheme := pathNet } }
  | .count => { settings with cmd := { cmd with count := number str } }
  | .chromaInterleave => { settings with cmd := { cmd with chromaInterleave := number str } }
  | .mp4Class => { settings with cmd := { cmd with mp4H264Class := number str } }
  | .deblock => { settings with cmd := { cmd with deblockEn := number str } }
  | .dering => { settings with cmd := { cmd with deringEn := number str } }
  | .mirror => { settings with cmd := { cmd with mirror := number str } }
  | .width => { settings with cmd := { cmd with width := number str } }
  | .height => { settings with cmd := { cmd with height := number str } }
  | .bitrate => { settings with cmd := { cmd with bitrate := number str } }
  | .prescan =>
      { settings with cmd := { cmd with bsMode := number str, prescan := number str } }
  | .gop => { settings with cmd := { cmd with gop := number str } }
  | .quantParam => { settings with cmd := { cmd with quantParam := number str } }

def found (key : Key) (buf : Text) (settings : Settings) : Settings :=
  match behind '=' buf with
  | none => settings
  | some str => if str = [] then settings else key.assign str settings

end Key

def endText : Text := ['e', 'n', 'd']

def skipUnwanted : Text → Text
  | [] => []
  | c :: rest =>
      if c = ' ' ∨ c = '\t' ∨ c = '\n' then skipUnwanted rest
      else if c = '#' then []
      else c :: skipUnwanted rest

def parseOptions (buf : Text) (settings : Settings) : Int × Settings :=
  if strstr buf endText then (100, settings)
  else
    match Key.all.find? fun key => strstr buf key.text with
    | none => (0, settings)
    | some key => (0, key.found buf settings)

/-! ## What a line should do -/

open Key (number)

/-- The fields that belong to the key hold what the value denotes, and no other has
changed. -/
def Assigned (key : Key) (value : Text) (before after : Settings) : Prop :=
  let cmd := before.cmd
  match key with
  | .operation => after = ⟨cmd, number value⟩
  | .input => contents after.cmd.input = value ∧
      after = ⟨{ cmd with input := after.cmd.input, srcScheme := pathFile }, before.mode⟩
  | .output => contents after.cmd.output = value ∧
      after = ⟨{ cmd with output := after.cmd.output, dstScheme := pathFile }, before.mode⟩
  | .port => after = ⟨{ cmd with port := number value % 2 ^ 16 }, before.mode⟩
  | .format => after = ⟨{ cmd with format := number value }, before.mode⟩
  | .rotation => after = ⟨{ cmd with rotEn := 1, rotAngle := number value }, before.mode⟩
  | .extRot =>
      after = ⟨{ cmd with
        extRotEn := number value
        rotEn := if number value = 1 then 0 else cmd.rotEn }, before.mode⟩
  | .ip => contents after.cmd.output = value ∧
      after = ⟨{ cmd with output := after.cmd.output, dstScheme := pathNet }, before.mode⟩
  | .count => after = ⟨{ cmd with count := number value }, before.mode⟩
  | .chromaInterleave => after = ⟨{ cmd with chromaInterleave := number value }, before.mode⟩
  | .mp4Class => after = ⟨{ cmd with mp4H264Class := number value }, before.mode⟩
  | .deblock => after = ⟨{ cmd with deblockEn := number value }, before.mode⟩
  | .dering => after = ⟨{ cmd with deringEn := number value }, before.mode⟩
  | .mirror => after = ⟨{ cmd with mirror := number value }, before.mode⟩
  | .width => after = ⟨{ cmd with width := number value }, before.mode⟩
  | .height => after = ⟨{ cmd with height := number value }, before.mode⟩
  | .bitrate => after = ⟨{ cmd with bitrate := number value }, before.mode⟩
  | .prescan => after = ⟨{ cmd with bsMode := number value, prescan := number value }, before.mode⟩
  | .gop => after = ⟨{ cmd with gop := number value }, before.mode⟩
  | .quantParam => after = ⟨{ cmd with quantParam := number value }, before.mode⟩

/-- A value that a line with this key can have. -/
structure Value (key : Key) where
  text : Text
  nonempty : text ≠ []
  clean : ∀ c ∈ text, c ≠ ' ' ∧ c ≠ '\t' ∧ c ≠ '\n' ∧ c ≠ '#' ∧ c ≠ '\x00'
  short : (key.text ++ '=' :: text).length < maxPath

def Value.line {key : Key} (value : Value key) : Text :=
  key.text ++ '=' :: value.text

def Independent {key : Key} (value : Value key) : Prop :=
  ∀ settings, ∃ after, parseOptions (skipUnwanted value.line) settings = (0, after) ∧
    Assigned key value.text settings after

/-- The words that are looked for before the key. -/
def earlier (key : Key) : List Text :=
  endText :: (Key.all.takeWhile fun other => other ≠ key).map Key.text

/-- No such word stands in the value, and a network address fits into the 64
characters that are copied. -/
def Undisturbed {key : Key} (value : Value key) : Prop :=
  (∀ word ∈ earlier key, ¬ word <:+: value.text) ∧ (key = .ip → value.text.length < 64)

/-- What stands before the first `=`. -/
def keyOf (line : Text) : Text :=
  (skipUnwanted line).takeWhile fun c => c ≠ '='

def EndOnly (line : Text) : Prop :=
  ∀ settings, (parseOptions (skipUnwanted line) settings).1 = 100 → keyOf line = endText

/-! ## One key and another -/

/-- A field that belongs to the key. -/
def probe (key : Key) (settings : Settings) : Int :=
  match key with
  | .operation => settings.mode
  | .input => settings.cmd.srcScheme
  | .output => settings.cmd.dstScheme
  | .port => settings.cmd.port
  | .format => settings.cmd.format
  | .rotation => settings.cmd.rotAngle
  | .extRot => settings.cmd.extRotEn
  | .ip => settings.cmd.dstScheme
  | .count => settings.cmd.count
  | .chromaInterleave => settings.cmd.chromaInterleave
  | .mp4Class => settings.cmd.mp4H264Class
  | .deblock => settings.cmd.deblockEn
  | .dering => settings.cmd.deringEn
  | .mirror => settings.cmd.mirror
  | .width => settings.cmd.width
  | .height => settings.cmd.height
  | .bitrate => settings.cmd.bitrate
  | .prescan => settings.cmd.prescan
  | .gop => settings.cmd.gop
  | .quantParam => settings.cmd.quantParam

def required (key : Key) (value : Text) : Int :=
  match key with
  | .input | .output => pathFile
  | .ip => pathNet
  | .port => number value % 2 ^ 16
  | _ => number value

theorem Assigned.probe {key : Key} {value : Text} {before after : Settings}
    (assigned : Assigned key value before after) : probe key after = required key value := by
  cases key with
  | input => exact congrArg (fun settings => settings.cmd.srcScheme) assigned.2
  | output => exact congrArg (fun settings => settings.cmd.dstScheme) assigned.2
  | ip => exact congrArg (fun settings => settings.cmd.dstScheme) assigned.2
  | _ =>
      cases assigned
      rfl

def filled (x : Int) (c : Char) : Settings :=
  ⟨⟨fun _ => c, fun _ => c, x, x, x, x, x, x, x, x, x, x, x, x, x, x, x, x, x, x, x, x⟩, x⟩

theorem probe_assign_other {key other : Key} (differ : other ≠ key) (value : Text) {x : Int}
    (fresh : x ≠ required key value) (c : Char) :
    probe key (other.assign value (filled x c)) ≠ required key value := by
  cases key <;> cases other <;>
    first
    | exact fresh
    | exact absurd rfl differ
    | exact (by decide : pathFile ≠ pathNet)
    | exact (by decide : pathNet ≠ pathFile)

/-- The line of one key is not the line of another, whatever the settings are. -/
theorem not_assigned_other {key other : Key} (differ : other ≠ key) (value : Text) :
    ∃ settings, ¬ Assigned key value settings (other.assign value settings) := by
  have fresh : required key value + 1 ≠ required key value := by omega
  refine ⟨filled (required key value + 1) ' ', ?_⟩
  intro assigned
  exact probe_assign_other differ value fresh ' ' assigned.probe

/-! ## The line of a key -/

theorem text_separator (key : Key) : '=' ∉ key.text := by
  cases key <;> decide

theorem endText_separator : '=' ∉ endText := by
  decide

theorem earlier_separator (key : Key) : ∀ word ∈ earlier key, '=' ∉ word := by
  intro word member
  obtain rfl | member := List.mem_cons.mp member
  · exact endText_separator
  · obtain ⟨other, -, rfl⟩ := List.mem_map.mp member
    exact text_separator other

/-- No key holds a word that is looked for before it. -/
theorem earlier_not_in_text (key : Key) : ∀ word ∈ earlier key, ¬ word <:+: key.text := by
  cases key <;> decide +kernel

theorem text_clean (key : Key) : ∀ c ∈ key.text, c ≠ ' ' ∧ c ≠ '\t' ∧ c ≠ '\n' ∧ c ≠ '#' := by
  have all : (key.text.all fun c => decide (c ≠ ' ' ∧ c ≠ '\t' ∧ c ≠ '\n' ∧ c ≠ '#')) = true := by
    cases key <;> decide +kernel
  exact fun c member => of_decide_eq_true (List.all_eq_true.mp all c member)

theorem skipUnwanted_clean {text : Text}
    (clean : ∀ c ∈ text, c ≠ ' ' ∧ c ≠ '\t' ∧ c ≠ '\n' ∧ c ≠ '#') : skipUnwanted text = text := by
  induction text with
  | nil => rfl
  | cons c rest ih =>
      obtain ⟨space, tab, newline, hash⟩ := clean c List.mem_cons_self
      have wanted : ¬ (c = ' ' ∨ c = '\t' ∨ c = '\n') := by simp [space, tab, newline]
      rw [skipUnwanted, if_neg wanted, if_neg hash,
        ih fun c member => clean c (List.mem_cons_of_mem _ member)]

theorem all_split (key : Key) :
    ∃ later, Key.all = (Key.all.takeWhile fun other => other ≠ key) ++ key :: later := by
  cases key <;> exact ⟨_, rfl⟩

section Line
variable {key : Key} (value : Value key)

theorem Value.skipUnwanted_line : skipUnwanted value.line = value.line := by
  apply skipUnwanted_clean
  intro c member
  obtain member | member := List.mem_append.mp member
  · exact text_clean key c member
  · obtain rfl | member := List.mem_cons.mp member
    · decide
    · obtain ⟨space, tab, newline, hash, -⟩ := value.clean c member
      exact ⟨space, tab, newline, hash⟩

theorem Value.earlier_in_line {word : Text} (member : word ∈ earlier key) :
    word <:+: value.line ↔ word <:+: value.text := by
  rw [line, infix_append_separator (earlier_separator key word member)]
  exact or_iff_right (earlier_not_in_text key word member)

theorem Value.found_line (other : Key) (settings : Settings) :
    other.found value.line settings = other.assign value.text settings := by
  rw [Key.found, line, behind_append (text_separator key)]
  exact if_neg value.nonempty

/-- Without an earlier keyword in the value the key is found. -/
theorem Value.find_key (free : ∀ word ∈ earlier key, ¬ word <:+: value.text) :
    (Key.all.find? fun other => strstr value.line other.text) = some key := by
  obtain ⟨later, order⟩ := all_split key
  have none : ((Key.all.takeWhile fun other => other ≠ key).find? fun other =>
      strstr value.line other.text) = none := by
    rw [List.find?_eq_none]
    intro other before
    have word : other.text ∈ earlier key := List.mem_cons_of_mem _ (List.mem_map_of_mem before)
    rw [strstr_eq_true, value.earlier_in_line word]
    exact free _ word
  have here : strstr value.line key.text = true :=
    strstr_eq_true.mpr (List.infix_append_left)
  rw [order, List.find?_append, none, List.find?_cons, here]
  rfl

/-- Of the earlier keywords in the value one is found first. -/
theorem Value.find_other {other : Key} (before : other ∈ Key.all.takeWhile fun other => other ≠ key)
    (inside : other.text <:+: value.text) :
    ∃ first, first ≠ key ∧
      (Key.all.find? fun other => strstr value.line other.text) = some first := by
  obtain ⟨later, order⟩ := all_split key
  have word : other.text ∈ earlier key := List.mem_cons_of_mem _ (List.mem_map_of_mem before)
  cases found : (Key.all.takeWhile fun other => other ≠ key).find? fun other =>
      strstr value.line other.text with
  | none =>
      rw [List.find?_eq_none] at found
      exact absurd (strstr_eq_true.mpr ((value.earlier_in_line word).mpr inside))
        (found other before)
  | some first =>
      refine ⟨first, ?_, ?_⟩
      · have kept := List.all_eq_true.mp List.all_takeWhile first (List.mem_of_find?_eq_some found)
        exact of_decide_eq_true kept
      · rw [order, List.find?_append, found]
        rfl

theorem Value.parse_found {first : Key} (noEnd : ¬ endText <:+: value.text)
    (found : (Key.all.find? fun other => strstr value.line other.text) = some first)
    (settings : Settings) :
    parseOptions (skipUnwanted value.line) settings = (0, first.assign value.text settings) := by
  have absent : strstr value.line endText = false := by
    rw [← Bool.not_eq_true, strstr_eq_true, value.earlier_in_line List.mem_cons_self]
    exact noEnd
  rw [value.skipUnwanted_line, parseOptions, absent, found]
  simp only [Bool.false_eq_true, if_false, value.found_line]

theorem Value.length_lt : value.text.length < maxPath := by
  have short := value.short
  rw [List.length_append, List.length_cons] at short
  omega

theorem Value.terminated : '\x00' ∉ value.text := fun member =>
  (value.clean _ member).2.2.2.2 rfl

theorem Value.assigned (fits : key = .ip → value.text.length < 64) (settings : Settings) :
    Assigned key value.text settings (key.assign value.text settings) := by
  have copied := fun target : Fin maxPath → Char =>
    contents_strncpy target value.length_lt value.length_lt value.terminated
  cases key with
  | input => exact ⟨copied _, rfl⟩
  | output => exact ⟨copied _, rfl⟩
  | ip => exact ⟨contents_strncpy _ value.length_lt (fits rfl) value.terminated, rfl⟩
  | _ => rfl

/-- Of 64 characters or more the terminator is not copied. -/
theorem not_assigned_long_ip {text : Text} (long : 64 ≤ text.length) :
    ∃ settings, ¬ Assigned .ip text settings (Key.ip.assign text settings) := by
  by_cases exactly : text.length = 64
  · refine ⟨filled 0 'x', ?_⟩
    rintro ⟨copied, -⟩
    have length := (congrArg List.length copied).trans exactly
    have terminated := contents_end (show 64 < maxPath by decide) length
    exact absurd terminated (show 'x' ≠ '\x00' by decide)
  · refine ⟨filled 0 '\x00', ?_⟩
    rintro ⟨copied, -⟩
    have inside : 64 < (contents (Key.ip.assign text (filled 0 '\x00')).cmd.output).length := by
      rw [copied]
      omega
    exact contents_inside (show 64 < maxPath by decide) inside rfl

/-- A line does what it says exactly when no keyword in its value comes first. -/
theorem Value.independent_iff : Independent value ↔ Undisturbed value := by
  constructor
  · intro independent
    have noEnd : ¬ endText <:+: value.text := by
      intro inside
      obtain ⟨after, parsed, -⟩ := independent (filled 0 ' ')
      have found : strstr value.line endText = true :=
        strstr_eq_true.mpr ((value.earlier_in_line List.mem_cons_self).mpr inside)
      rw [value.skipUnwanted_line, parseOptions, if_pos found] at parsed
      exact absurd (congrArg Prod.fst parsed) (show (100 : Int) ≠ 0 by decide)
    have free : ∀ word ∈ earlier key, ¬ word <:+: value.text := by
      intro word member inside
      obtain rfl | member := List.mem_cons.mp member
      · exact noEnd inside
      · obtain ⟨other, before, rfl⟩ := List.mem_map.mp member
        obtain ⟨first, differ, found⟩ := value.find_other before inside
        obtain ⟨settings, wrong⟩ := not_assigned_other differ value.text
        obtain ⟨after, parsed, assigned⟩ := independent settings
        rw [value.parse_found noEnd found] at parsed
        obtain rfl := congrArg Prod.snd parsed
        exact wrong assigned
    refine ⟨free, ?_⟩
    rintro rfl
    by_contra long
    obtain ⟨settings, wrong⟩ := not_assigned_long_ip (Nat.le_of_not_lt long)
    obtain ⟨after, parsed, assigned⟩ := independent settings
    rw [value.parse_found noEnd (value.find_key free)] at parsed
    obtain rfl := congrArg Prod.snd parsed
    exact wrong assigned
  · rintro ⟨free, fits⟩ settings
    have noEnd := free endText List.mem_cons_self
    exact ⟨_, value.parse_found noEnd (value.find_key free) settings, value.assigned fits settings⟩

end Line

theorem parseOptions_hundred (buf : Text) (settings : Settings) :
    (parseOptions buf settings).1 = 100 ↔ endText <:+: buf := by
  rw [← strstr_eq_true, parseOptions]
  split
  · next found => exact iff_of_true rfl found
  · next absent =>
      refine iff_of_false ?_ absent
      split
      · exact show (0 : Int) ≠ 100 by decide
      · exact show (0 : Int) ≠ 100 by decide

theorem endOnly_iff (line : Text) :
    EndOnly line ↔ keyOf line = endText ∨ ¬ endText <:+: skipUnwanted line := by
  unfold EndOnly
  simp only [parseOptions_hundred]
  constructor
  · intro only
    by_cases inside : endText <:+: skipUnwanted line
    · exact .inl (only (filled 0 ' ') inside)
    · exact .inr inside
  · intro either _ inside
    exact either.resolve_right (not_not_intro inside)

/-- When the lines of the file are independent of their values, and when a section
ends only where the file says so. -/
theorem parseOptions_independent_iff (key : Key) (value : Value key) (line : Text) :
    (Independent value ↔ Undisturbed value) ∧
      (EndOnly line ↔ keyOf line = endText ∨ ¬ endText <:+: skipUnwanted line) :=
  ⟨value.independent_iff, endOnly_iff line⟩

/-- The path `/tmp/trend.yuv` of an input ends the section. -/
theorem parseOptions_disturbed :
    ¬ ((∀ (key : Key) (value : Value key), Independent value) ∧ ∀ line : Text, EndOnly line) := by
  rintro ⟨independent, -⟩
  let value : Value .input :=
    { text := ['/', 't', 'm', 'p', '/', 't', 'r', 'e', 'n', 'd', '.', 'y', 'u', 'v']
      nonempty := by decide
      clean := by simp
      short := by decide }
  have free := (value.independent_iff.mp (independent .input value)).1 endText List.mem_cons_self
  exact free (by decide)

end ImxTest.Vpu.ParseOptions
