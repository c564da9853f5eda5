import Mathlib.Algebra.Ring.Int.Defs
import Mathlib.Algebra.Ring.Nat
import Mathlib.Data.List.Basic
import Mathlib.Data.List.OfFn
import Mathlib.Tactic.Common
import Mathlib.Tactic.IntervalCases

/-!
# Strings of C

A string is the list of its characters before the terminator.  An array of
characters may hold a string; what follows the terminator is kept.
-/

set_option autoImplicit false

namespace ImxTest.Lib.CString

abbrev Text : Type := List Char

/-- Whether `strstr` finds the word. -/
def strstr : Text → Text → Bool
  | [], word => word.isEmpty
  | c :: rest, word => word.isPrefixOf (c :: rest) || strstr rest word

/-- What stands behind the character that `strchr` finds. -/
def behind (c : Char) : Text → Option Text
  | [] => none
  | d :: rest => if d = c then some rest else behind c rest

/-- `isspace` in the C locale. -/
def isSpace (c : Char) : Bool :=
  c ∈ [' ', '\t', '\n', '\x0b', '\x0c', '\r']

def digitsValue : Nat → Text → Nat
  | value, [] => value
  | value, c :: rest => if c.isDigit then digitsValue (10 * value + (c.toNat - 48)) rest else value

/-- `strtol` with base 10 for a `long` of `bits` bits, which is also what `atoi` returns
where an `int` has as many. -/
def strtol (bits : Nat) (text : Text) : Int :=
  let value : Int :=
    match text.dropWhile isSpace with
    | '-' :: rest => -digitsValue 0 rest
    | '+' :: rest => digitsValue 0 rest
    | rest => digitsValue 0 rest
  max (-2 ^ (bits - 1)) (min (2 ^ (bits - 1) - 1) value)

def digitOfHex (c : Char) : Option Nat :=
  if '0' ≤ c ∧ c ≤ '9' then some (c.toNat - 48)
  else if 'a' ≤ c ∧ c ≤ 'f' then some (c.toNat - 87)
  else if 'A' ≤ c ∧ c ≤ 'F' then some (c.toNat - 55)
  else none

def hexValue : Nat → Text → Nat
  | value, [] => value
  | value, c :: rest =>
      match digitOfHex c with
      | none => value
      | some digit => hexValue (16 * value + digit) rest

/-- `0x` before a digit is left out. -/
def significant (text : Text) : Text :=
  match text with
  | zero :: x :: digit :: rest =>
      if zero = '0' ∧ (x = 'x' ∨ x = 'X') ∧ (digitOfHex digit).isSome then digit :: rest else text
  | _ => text

/-- `strtoul` with base 16 for a `long` of `bits` bits. -/
def strtoul (bits : Nat) (text : Text) : Nat :=
  let rest := text.dropWhile isSpace
  let digits := if rest.head? = some '-' ∨ rest.head? = some '+' then rest.tail else rest
  let value := hexValue 0 (significant digits)
  if 2 ^ bits ≤ value then 2 ^ bits - 1
  else if rest.head? = some '-' then (2 ^ bits - value) % 2 ^ bits
  else value

/-- At most `count` characters are copied; the terminator is copied as often as it
takes to make it `count`. -/
def strncpy {n : Nat} (target : Fin n → Char) (source : Text) (count : Nat) : Fin n → Char :=
  fun i => if i.val < count then (source[i.val]?).getD '\x00' else target i

def contents {n : Nat} (array : Fin n → Char) : Text :=
  (List.ofFn array).takeWhile (· ≠ '\x00')

/-- The string that begins here, if its terminator follows. -/
def terminated : Text → Option Text
  | [] => none
  | c :: rest => if c = '\x00' then some [] else (terminated rest).map (c :: ·)

/-- What the calls of `fgets` for `size` characters give: each reads to a newline, or
until there is room for the terminator only.  `line` is what the call has read, and
`room + 1` is how much it may still read. -/
def fgetsFrom (size : Nat) : Nat → Text → Text → List Text
  | _, [], [] => []
  | _, line, [] => [line]
  | 0, line, c :: rest => (line ++ [c]) :: fgetsFrom size (size - 2) [] rest
  | room + 1, line, c :: rest =>
      if c = '\n' then (line ++ [c]) :: fgetsFrom size (size - 2) [] rest
      else fgetsFrom size room (line ++ [c]) rest

def fgetsLines (size : Nat) (file : Text) : List Text :=
  fgetsFrom size (size - 2) [] file

/-! ## Words and separators -/

theorem strstr_eq_true {text word : Text} : strstr text word = true ↔ word <:+: text := by
  induction text with
  | nil => rw [strstr, List.isEmpty_iff, List.infix_nil]
  | cons c rest ih =>
      rw [strstr, Bool.or_eq_true, List.isPrefixOf_iff_prefix, ih, List.infix_cons_iff]

section Separator
variable {separator : Char} {word left right : Text}

theorem prefix_append_separator (absent : separator ∉ word)
    (begins : word <+: left ++ separator :: right) : word <+: left := by
  obtain ⟨rest, whole⟩ := begins
  obtain ⟨more, same, -⟩ | ⟨more, same, other⟩ := List.append_eq_append_iff.mp whole
  · exact ⟨more, same.symm⟩
  · cases more with
    | nil => exact ⟨[], by simpa using same⟩
    | cons c more =>
        obtain ⟨rfl, -⟩ := List.cons.inj other
        exact absurd (by rw [same]; simp) absent

/-- A word without the separator lies on one side of it. -/
theorem infix_append_separator (absent : separator ∉ word) :
    word <:+: left ++ separator :: right ↔ word <:+: left ∨ word <:+: right := by
  constructor
  · intro inside
    induction left with
    | nil =>
        obtain begins | inside := List.infix_cons_iff.mp inside
        · exact .inl (prefix_append_separator absent begins).isInfix
        · exact .inr inside
    | cons c left ih =>
        obtain begins | inside := List.infix_cons_iff.mp inside
        · exact .inl (prefix_append_separator absent begins).isInfix
        · exact (ih inside).imp_left fun found => List.infix_cons_iff.mpr (.inr found)
  · rintro (inside | inside)
    · exact List.infix_append_of_infix_left inside
    · exact List.infix_append_of_infix_right (List.infix_cons_iff.mpr (.inr inside))

theorem behind_append (absent : separator ∉ left) :
    behind separator (left ++ separator :: right) = some right := by
  induction left with
  | nil => simp [behind]
  | cons c left ih =>
      have other : c ≠ separator := fun same => absent (by rw [same]; exact List.mem_cons_self)
      rw [List.cons_append, behind, if_neg other]
      exact ih fun member => absent (List.mem_cons_of_mem _ member)

end Separator

theorem terminated_append {text rest : Text} (clean : '\x00' ∉ text) :
    terminated (text ++ '\x00' :: rest) = some text := by
  induction text with
  | nil => rfl
  | cons c text ih =>
      have other : c ≠ '\x00' := fun zero => clean (by rw [zero]; exact List.mem_cons_self)
      rw [List.cons_append, terminated, if_neg other,
        ih fun member => clean (List.mem_cons_of_mem _ member)]
      rfl

/-! ## Hexadecimal numbers -/

def IsHex (text : Text) : Prop :=
  ∀ c ∈ text, (digitOfHex c).isSome = true

instance (text : Text) : Decidable (IsHex text) :=
  decidable_of_iff ((text.all fun c => (digitOfHex c).isSome) = true) List.all_eq_true

def hexDigits : Text :=
  ['0', '1', '2', '3', '4', '5', '6', '7', '8', '9', 'a', 'b', 'c', 'd', 'e', 'f',
    'A', 'B', 'C', 'D', 'E', 'F']

theorem mem_hexDigits {c : Char} (digit : (digitOfHex c).isSome = true) : c ∈ hexDigits := by
  have number : c = Char.ofNat c.toNat := c.ofNat_toNat.symm
  rw [digitOfHex] at digit
  split at digit
  · rename_i range
    have low : 48 ≤ c.toNat := range.1
    have high : c.toNat ≤ 57 := range.2
    interval_cases same : c.toNat <;> rw [number] <;> decide
  · split at digit
    · rename_i range
      have low : 97 ≤ c.toNat := range.1
      have high : c.toNat ≤ 102 := range.2
      interval_cases same : c.toNat <;> rw [number] <;> decide
    · split at digit
      · rename_i range
        have low : 65 ≤ c.toNat := range.1
        have high : c.toNat ≤ 70 := range.2
        interval_cases same : c.toNat <;> rw [number] <;> decide
      · cases digit

theorem IsHex.not_mem {text : Text} (hex : IsHex text) {c : Char} (other : c ∉ hexDigits) :
    c ∉ text :=
  fun member => other (mem_hexDigits (hex c member))

theorem hexValue_append {digits rest : Text} (hex : IsHex digits)
    (stops : ∀ c ∈ rest.head?, digitOfHex c = none) (value : Nat) :
    hexValue value (digits ++ rest) = hexValue value digits := by
  induction digits generalizing value with
  | nil =>
      cases rest with
      | nil => rfl
      | cons c rest => simp only [List.nil_append, hexValue, stops c rfl]
  | cons c digits ih =>
      obtain ⟨digit, here⟩ := Option.isSome_iff_exists.mp (hex c List.mem_cons_self)
      rw [List.cons_append, hexValue, hexValue, here]
      exact ih (fun d member => hex d (List.mem_cons_of_mem _ member)) _

theorem digitOfHex_lt {c : Char} {digit : Nat} (read : digitOfHex c = some digit) :
    digit < 16 := by
  have known := mem_hexDigits (Option.isSome_of_eq_some read)
  have small : ∀ d ∈ hexDigits, ∀ value, digitOfHex d = some value → value < 16 := by
    simp [hexDigits, digitOfHex]
  exact small c known digit read

/-- The digits that were read before stand in front of the number. -/
theorem hexValue_shift {digits : Text} (hex : IsHex digits) (value : Nat) :
    hexValue value digits = value * 16 ^ digits.length + hexValue 0 digits := by
  induction digits generalizing value with
  | nil => simp [hexValue]
  | cons c rest ih =>
      have hexRest : IsHex rest := fun d member => hex d (List.mem_cons_of_mem _ member)
      obtain ⟨digit, here⟩ := Option.isSome_iff_exists.mp (hex c List.mem_cons_self)
      simp only [hexValue, here, Nat.mul_zero, Nat.zero_add]
      rw [ih hexRest (16 * value + digit), ih hexRest digit, List.length_cons, Nat.pow_succ,
        Nat.add_mul, Nat.add_assoc, Nat.mul_comm 16 value, Nat.mul_assoc, Nat.mul_comm 16]

theorem hexValue_lt {digits : Text} (hex : IsHex digits) :
    hexValue 0 digits < 16 ^ digits.length := by
  induction digits with
  | nil => exact Nat.one_pos
  | cons c rest ih =>
      have hexRest : IsHex rest := fun d member => hex d (List.mem_cons_of_mem _ member)
      obtain ⟨digit, here⟩ := Option.isSome_iff_exists.mp (hex c List.mem_cons_self)
      have small := Nat.mul_le_mul_right (16 ^ rest.length) (Nat.le_of_lt_succ (digitOfHex_lt here))
      have below := ih hexRest
      simp only [hexValue, here, Nat.mul_zero, Nat.zero_add]
      rw [hexValue_shift hexRest, List.length_cons, Nat.pow_succ]
      omega

theorem significant_eq {text : Text} (plain : ∀ c ∈ text.tail.head?, c ≠ 'x' ∧ c ≠ 'X') :
    significant text = text := by
  unfold significant
  split
  · rename_i zero x digit rest
    obtain ⟨small, large⟩ := plain x rfl
    rw [if_neg (by simp [small, large])]
  · rfl

/-- Digits up to the end or to a character that is not read. -/
theorem strtoul_append {bits : Nat} {digits rest : Text} (nonempty : digits ≠ [])
    (hex : IsHex digits)
    (stops : ∀ c ∈ rest.head?, digitOfHex c = none ∧ c ≠ 'x' ∧ c ≠ 'X') :
    strtoul bits (digits ++ rest) =
      if 2 ^ bits ≤ hexValue 0 digits then 2 ^ bits - 1 else hexValue 0 digits := by
  obtain ⟨first, more, rfl⟩ := List.exists_cons_of_ne_nil nonempty
  have digit := mem_hexDigits (hex first List.mem_cons_self)
  have plain : ∀ c ∈ hexDigits, isSpace c = false ∧ c ≠ '-' ∧ c ≠ '+' := by
    simp [hexDigits, isSpace]
  obtain ⟨space, minus, plus⟩ := plain first digit
  have second : ∀ c ∈ (first :: more ++ rest).tail.head?, c ≠ 'x' ∧ c ≠ 'X' := by
    intro c head
    cases more with
    | nil => exact (stops c head).2
    | cons d more =>
        have inside := mem_hexDigits (hex d (by simp))
        have same : d = c := Option.some.inj head
        rw [← same]
        exact (by simp [hexDigits] : ∀ c ∈ hexDigits, c ≠ 'x' ∧ c ≠ 'X') d inside
  have start : (first :: more ++ rest).dropWhile isSpace = first :: more ++ rest := by
    rw [List.cons_append, List.dropWhile_cons_of_neg (by rw [space]; exact Bool.false_ne_true)]
  have sign : (first :: more ++ rest).head? = some first := rfl
  have unsigned : ¬ (some first = some '-' ∨ some first = some '+') := by simp [minus, plus]
  have positive : ¬ some first = some '-' := by simp [minus]
  rw [strtoul, start, sign, if_neg unsigned, if_neg positive, significant_eq second,
    hexValue_append hex fun c head => (stops c head).1]

/-! ## Arrays -/

theorem contents_eq {n : Nat} {array : Fin n → Char} {text : Text} (short : text.length < n)
    (clean : '\x00' ∉ text)
    (same : ∀ i : Fin n, i.val ≤ text.length → array i = (text[i.val]?).getD '\x00') :
    contents array = text := by
  have begins : (List.ofFn array).take (text.length + 1) = text ++ ['\x00'] := by
    apply List.ext_getElem
    · rw [List.length_take, List.length_ofFn, List.length_append, List.length_singleton]
      omega
    · intro i inside _
      rw [List.length_take] at inside
      rw [List.getElem_take, List.getElem_ofFn, same _ (by simp; omega)]
      by_cases early : i < text.length
      · rw [List.getElem_append_left early, List.getElem?_eq_getElem early]
        rfl
      · have last : i = text.length := by omega
        subst last
        simp
  have whole : List.ofFn array =
      text ++ '\x00' :: (List.ofFn array).drop (text.length + 1) := by
    have split := List.take_append_drop (text.length + 1) (List.ofFn array)
    rw [begins, List.append_assoc] at split
    exact split.symm
  have kept : ∀ c ∈ text, decide (c ≠ '\x00') = true := by
    intro c member
    exact decide_eq_true fun zero => clean (by rw [← zero]; exact member)
  rw [contents, whole, List.takeWhile_append_of_pos kept]
  simp

theorem contents_strncpy {n count : Nat} (target : Fin n → Char) {text : Text}
    (short : text.length < n) (copied : text.length < count) (clean : '\x00' ∉ text) :
    contents (strncpy target text count) = text := by
  apply contents_eq short clean
  intro i inside
  rw [strncpy, if_pos (by omega)]

theorem contents_inside {n i : Nat} {array : Fin n → Char} (bound : i < n)
    (inside : i < (contents array).length) : array ⟨i, bound⟩ ≠ '\x00' := by
  have same : (contents array)[i] = array ⟨i, bound⟩ := by
    have begins : contents array <+: List.ofFn array := List.takeWhile_prefix _
    exact (begins.getElem inside).trans (List.getElem_ofFn _)
  have all : (contents array).all (· ≠ '\x00') = true := List.all_takeWhile
  have kept := List.all_eq_true.mp all _ (List.getElem_mem inside)
  rw [← same]
  exact of_decide_eq_true kept

theorem contents_end {n i : Nat} {array : Fin n → Char} (bound : i < n)
    (length : (contents array).length = i) : array ⟨i, bound⟩ = '\x00' := by
  subst length
  have split : contents array ++ (List.ofFn array).dropWhile (· ≠ '\x00') = List.ofFn array :=
    List.takeWhile_append_dropWhile
  cases rest : (List.ofFn array).dropWhile (· ≠ '\x00') with
  | nil =>
      have length := congrArg List.length split
      rw [rest, List.append_nil, List.length_ofFn] at length
      omega
  | cons c more =>
      have ends := List.head?_dropWhile_not (· ≠ '\x00') (List.ofFn array)
      rw [rest] at ends split
      have here : (List.ofFn array)[(contents array).length]? = some c := by
        rw [← split]
        simp
      have zero : c = '\x00' := by simpa using ends
      rw [List.getElem?_ofFn, dif_pos bound, zero] at here
      exact Option.some.inj here

end ImxTest.Lib.CString
