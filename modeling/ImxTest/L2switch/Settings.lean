import ImxTest.L2switch.Missing
import Mathlib.Data.List.TakeWhile

/-!
# The settings that the arguments denote

The comments of the source give each field an argument and a range.  `documented` is the
structure that they ask for; the main result says when the one that an accepted run passes
to the `ioctl` is this one.  The digit parsers are copies of each other with an index
written into each.
-/

set_option autoImplicit false

namespace ImxTest.L2switch

open ImxTest.Lib.CString ImxTest.Lib.Exits

/-- The number that the argument denotes, where it is not above `last`. -/
def number (last : Nat) (arg : Arg) : Option Nat :=
  if arg.chars ≠ [] ∧ IsHex arg.chars ∧ hexValue 0 arg.chars ≤ last then
    some (hexValue 0 arg.chars)
  else none

/-- Six bytes of two digits each. -/
def address (arg : Arg) : Option (List Nat) :=
  if arg.chars.length = 12 ∧ IsHex arg.chars then
    some ((List.range 6).map fun k => hexValue 0 ((arg.chars.drop (2 * k)).take 2))
  else none

section Documented
variable (argv : List Arg)

def numberAt (n last : Nat) : Option Nat :=
  argv[n]?.bind (number last)

def addressAt (n : Nat) : Option (List Nat) :=
  argv[n]?.bind address

/-- The fields with their arguments and ranges. -/
def documented : Command → Option Data
  | .setlearning | .setblocking | .setmutilcast | .setbroadcast => do
      return .portConfig (← numberAt argv 3 2) (← numberAt argv 4 1)
  | .setportenable => do
      return .portEnableConfig (← numberAt argv 3 2) (← numberAt argv 4 1) (← numberAt argv 5 1)
  | .setp0forward => do
      return .p0ForcedForwardConfig (← numberAt argv 3 1) (← numberAt argv 4 1)
        (← numberAt argv 5 1)
  | .setipsnoop => do
      return .ipSnoopConfig (← numberAt argv 3 7) (← numberAt argv 4 3) (← numberAt argv 5 0xff)
  | .setportsnoop => do
      return .portsnoopConfig (← numberAt argv 3 7) (← numberAt argv 4 3)
        (← numberAt argv 5 0xffff) (← numberAt argv 6 3)
  | .setportmirror => do
      return .portMirrorConfig (← numberAt argv 3 2) (← numberAt argv 4 2) (← numberAt argv 5 1)
        (← numberAt argv 6 1) (← numberAt argv 7 1) (← numberAt argv 8 1) (← numberAt argv 9 1)
        (← numberAt argv 10 1) (← addressAt argv 11) (← addressAt argv 12) (← numberAt argv 13 1)
  | .setvlanoutput => do
      return .vlanOutputConfig (← numberAt argv 3 2) (← numberAt argv 4 3)
  | .setvlaninput => do
      return .vlanInputConfig (← numberAt argv 3 2) (← numberAt argv 4 3) (← numberAt argv 5 0xfff)
        (← numberAt argv 6 1) (← numberAt argv 7 31) (← numberAt argv 8 7)
  | _ => none

def settings : List Command :=
  [.setlearning, .setblocking, .setmutilcast, .setbroadcast, .setportenable, .setp0forward,
    .setipsnoop, .setportsnoop, .setportmirror, .setvlanoutput, .setvlaninput]

/-- The arguments for which the three parsers that differ from their comments do no harm. -/
structure Harmless (command : Command) : Prop where
  compareNum : command = .setportsnoop → argv[6]?.map Arg.chars = argv[4]?.map Arg.chars
  portVlanid : command = .setvlaninput → (numberAt argv 5 0xfff).isSome = true
  srcMac : command = .setportmirror → (addressAt argv 11).isSome = true
  desMac : command = .setportmirror → (addressAt argv 12).isSome = true

end Documented

/-! ## What the parsers return -/

section Parsers
variable {argv : List Arg} {n value : Nat} {arg : Arg}

theorem hexDigit_eq (c : Char) : hexDigit c = digitOfHex c := by
  unfold hexDigit digitOfHex
  split
  · rfl
  · split
    · next lower =>
        have low : 97 ≤ c.toNat := lower.1
        exact congrArg some (show c.toNat - 97 + 10 = c.toNat - 87 by omega)
    · split
      · next upper =>
          have low : 65 ≤ c.toNat := upper.1
          exact congrArg some (show c.toNat - 65 + 10 = c.toNat - 55 by omega)
      · rfl

theorem number_eq {last : Nat} (given : arg.chars ≠ []) (hex : IsHex arg.chars)
    (inside : hexValue 0 arg.chars ≤ last) : number last arg = some (hexValue 0 arg.chars) :=
  if_pos ⟨given, hex, inside⟩

theorem Arg.length_le_one (ended : arg.get 1 = '\x00') : arg.chars.length ≤ 1 := by
  by_contra more
  rw [arg.get_of_lt (by omega)] at ended
  exact arg.clean (ended ▸ List.getElem_mem (by omega))

/-- One character from `0` up to `last` is all that the argument has. -/
theorem Arg.IsDigit.chars_eq {last : Char} (digit : arg.IsDigit last) :
    arg.chars = [arg.get 0] := by
  obtain ⟨ended, low, -⟩ := digit
  have first : 0 < arg.chars.length := by
    refine Nat.pos_of_ne_zero fun empty => ?_
    rw [← empty, arg.get_length] at low
    exact absurd low (by decide)
  have single := Arg.length_le_one ended
  obtain ⟨c, only⟩ := List.length_eq_one_iff.mp (show arg.chars.length = 1 by omega)
  rw [arg.get_of_lt first]
  simp only [only, List.getElem_cons_zero]

theorem digit_ok_iff {last : Char} {long error : String} :
    digit argv n last long error = .ok value ↔
      ∃ arg, argv[n]? = some arg ∧ arg.IsDigit last ∧
        value = (arg.get 0).toNat - '0'.toNat := by
  cases found : argv[n]? with
  | none => simp [digit_absent found]
  | some arg =>
      rw [digit_eq found]
      split
      · next long => simp [Arg.IsDigit, long]
      · next short =>
          split
          · next inside => simp [Arg.IsDigit, not_not.mp short, inside, eq_comm]
          · next outside => simp [Arg.IsDigit, outside]

theorem digit_numberAt {last : Char} (decimal : last ≤ '9') {long error : String}
    (read : digit argv n last long error = .ok value) :
    numberAt argv n (last.toNat - '0'.toNat) = some value := by
  obtain ⟨arg, found, digit, rfl⟩ := digit_ok_iff.mp read
  have here : digitOfHex (arg.get 0) = some ((arg.get 0).toNat - 48) :=
    if_pos ⟨digit.2.1, Nat.le_trans (show (arg.get 0).toNat ≤ last.toNat from digit.2.2) decimal⟩
  have denoted : hexValue 0 arg.chars = (arg.get 0).toNat - 48 := by
    rw [digit.chars_eq]
    simp only [hexValue, here, Nat.mul_zero, Nat.zero_add]
  have high : (arg.get 0).toNat ≤ last.toNat := digit.2.2
  rw [numberAt, found]
  refine (number_eq ?_ ?_ ?_).trans (congrArg some denoted)
  · rw [digit.chars_eq]
    exact List.cons_ne_nil _ _
  · rw [digit.chars_eq, IsHex]
    simp [here]
  · rw [denoted]
    exact Nat.sub_le_sub_right high 48

theorem numberAt_found {last : Nat} (found : argv[n]? = some arg)
    (denoted : numberAt argv n last = some value) :
    arg.chars ≠ [] ∧ IsHex arg.chars ∧ hexValue 0 arg.chars = value ∧ value ≤ last := by
  rw [numberAt, found, Option.bind_some, number] at denoted
  split at denoted
  · next inside =>
      cases denoted
      exact ⟨inside.1, inside.2.1, rfl, inside.2.2⟩
  · cases denoted

theorem numberAt_congr {m : Nat} (same : argv[n]?.map Arg.chars = argv[m]?.map Arg.chars)
    (last : Nat) : numberAt argv n last = numberAt argv m last := by
  have chars (arg : Option Arg) : arg.bind (number last) = (arg.map Arg.chars).bind fun text =>
      if text ≠ [] ∧ IsHex text ∧ hexValue 0 text ≤ last then some (hexValue 0 text) else none := by
    cases arg with
    | none => rfl
    | some arg => rfl
  rw [numberAt, numberAt, chars, chars, same]

/-- A range that is too wide takes no other number from the argument. -/
theorem numberAt_narrow {wide narrow : Nat} (denoted : numberAt argv n wide = some value) :
    numberAt argv n narrow = some value ↔ (numberAt argv n narrow).isSome = true := by
  refine ⟨Option.isSome_of_eq_some, fun inside => ?_⟩
  obtain ⟨other, here⟩ := Option.isSome_iff_exists.mp inside
  cases found : argv[n]? with
  | none =>
      rw [numberAt, found] at denoted
      cases denoted
  | some arg =>
      rw [here, ← (numberAt_found found here).2.2.1, (numberAt_found found denoted).2.2.1]

theorem digitOfHex_le_nine {c : Char} {digit : Nat} (read : digitOfHex c = some digit)
    (decimal : digit ≤ 9) : c.toNat = 48 + digit := by
  unfold digitOfHex at read
  split at read
  · next range =>
      have low : 48 ≤ c.toNat := range.1
      cases read
      omega
  · split at read
    · next range =>
        have low : 97 ≤ c.toNat := range.1
        cases read
        omega
    · split at read
      · next range =>
          have low : 65 ≤ c.toNat := range.1
          cases read
          omega
      · cases read

/-- A single character that denotes the number of a digit is this digit. -/
theorem single_chars {other : Arg} {last : Char} {most : Nat} (decimal : most ≤ 9)
    (ended : other.get 1 = '\x00') (digit : arg.IsDigit last) (given : other.chars ≠ [])
    (hex : IsHex other.chars) (same : hexValue 0 other.chars = (arg.get 0).toNat - '0'.toNat)
    (inside : (arg.get 0).toNat - '0'.toNat ≤ most) : other.chars = [arg.get 0] := by
  have short := Arg.length_le_one ended
  have some_char := List.length_pos_iff.mpr given
  obtain ⟨c, only⟩ := List.length_eq_one_iff.mp (show other.chars.length = 1 by omega)
  rw [only] at hex same ⊢
  obtain ⟨value, read⟩ := Option.isSome_iff_exists.mp (hex c List.mem_cons_self)
  simp only [hexValue, read, Nat.mul_zero, Nat.zero_add] at same
  have low : '0'.toNat ≤ (arg.get 0).toNat := digit.2.1
  have number := digitOfHex_le_nine read (by omega)
  have equal : c.toNat = (arg.get 0).toNat := by
    rw [number, same]
    exact Nat.add_sub_cancel' low
  rw [Char.toNat_inj.mp equal]

theorem hexAt_ok {i : Nat} {error : String} (found : argv[n]? = some arg)
    (inside : i < arg.chars.length) (read : hexAt argv n i error = .ok value) :
    digitOfHex arg.chars[i] = some value := by
  rw [hexAt, charAt_eq found, bind_ok, arg.get_of_lt inside, hexDigit_eq] at read
  split at read
  · cases read
  · next digit =>
      cases read
      exact digit

/-- The loop adds the number that the digits left denote. -/
theorem hexLoop_ok (found : argv[n]? = some arg) {bound : Option Nat} {ordinal : String}
    {left i parm : Nat} (place : i + left = arg.chars.length)
    (read : hexLoop argv n arg.chars.length bound ordinal left i parm = .ok value) :
    IsHex (arg.chars.drop i) ∧ value = parm + hexValue 0 (arg.chars.drop i) ∧
      ∀ most ∈ bound, parm ≤ most → value ≤ most := by
  induction left generalizing i parm with
  | zero =>
      cases read
      have ended : arg.chars.drop i = [] := List.drop_eq_nil_of_le (by omega)
      rw [ended]
      exact ⟨fun c member => absurd member List.not_mem_nil, rfl, fun most _ below => below⟩
  | succ left ih =>
      obtain ⟨digit, here, rest⟩ := bind_eq_ok read
      have inside : i < arg.chars.length := by omega
      have value_here := hexAt_ok found inside here
      dsimp only at rest
      split at rest
      · cases rest
      · next small =>
          obtain ⟨hex, sum, below⟩ := ih (by omega) rest
          have shift : arg.chars.length - 1 - i = left := by omega
          have weight : digit <<< (left * 4) = digit * 16 ^ left := by
            rw [Nat.shiftLeft_eq, Nat.mul_comm left 4, Nat.pow_mul]
          have length : (arg.chars.drop (i + 1)).length = left := by
            rw [List.length_drop]
            omega
          rw [List.drop_eq_getElem_cons inside]
          refine ⟨?_, ?_, fun most member _ => ?_⟩
          · intro c member
            rcases List.mem_cons.mp member with rfl | later
            · exact Option.isSome_of_eq_some value_here
            · exact hex c later
          · simp only [hexValue, value_here, Nat.mul_zero, Nat.zero_add]
            rw [sum, hexValue_shift hex digit, length, shift, weight, Nat.add_assoc]
          · refine below most member ?_
            cases member
            simpa using small

theorem hex_numberAt {most : Nat} {bound : Option Nat} {no long error : String}
    (read : hex argv n most bound no long error = .ok value) :
    numberAt argv n (bound.getD (16 ^ most - 1)) = some value := by
  cases found : argv[n]? with
  | none =>
      rw [hex, parmLen, findEnd, charAt, argument, found] at read
      cases read
  | some arg =>
      rw [hex, parmLen_eq found] at read
      split at read
      · cases read
      · next short =>
          split at read
          · cases read
          · next given =>
              obtain ⟨hex, sum, below⟩ := hexLoop_ok found (Nat.zero_add _) read
              rw [List.drop_zero, Nat.zero_add] at sum
              rw [List.drop_zero] at hex
              have fits := hexValue_lt hex
              have wide : 16 ^ arg.chars.length ≤ 16 ^ most :=
                Nat.pow_le_pow_right (by decide) (by omega)
              rw [numberAt, found, sum]
              refine number_eq (fun empty => given (by rw [empty]; rfl)) hex ?_
              cases bound with
              | none => exact Nat.le_sub_one_of_lt (fits.trans_le wide)
              | some last => exact sum ▸ below last rfl (Nat.zero_le _)

theorem macLoop_ok (found : argv[n]? = some arg) {error : String} {left i : Nat}
    {bytes : List Nat} (place : i + 2 * left ≤ arg.chars.length)
    (read : macLoop argv n error left i = .ok bytes) :
    bytes = (List.range left).map fun k =>
      hexValue 0 ((arg.chars.drop (i + 2 * k)).take 2) := by
  induction left generalizing i bytes with
  | zero =>
      cases read
      rfl
  | succ left ih =>
      obtain ⟨high, highRead, rest⟩ := bind_eq_ok read
      obtain ⟨low, lowRead, rest⟩ := bind_eq_ok rest
      obtain ⟨others, othersRead, rest⟩ := bind_eq_ok rest
      cases rest
      have first := hexAt_ok found (show i < arg.chars.length by omega) highRead
      have second := hexAt_ok found (show i + 1 < arg.chars.length by omega) lowRead
      have pair : hexValue 0 ((arg.chars.drop i).take 2) = high <<< 4 + low := by
        rw [List.drop_eq_getElem_cons (show i < arg.chars.length by omega),
          List.drop_eq_getElem_cons (show i + 1 < arg.chars.length by omega)]
        simp only [List.take_succ_cons, List.take_zero, hexValue, first, second]
        rw [Nat.shiftLeft_eq]
        omega
      rw [ih (by omega) othersRead, List.range_succ_eq_map, List.map_cons, List.map_map,
        Nat.mul_zero, Nat.add_zero i, pair]
      refine congrArg (List.cons _) (List.map_congr_left fun k _ => ?_)
      have next : i + 2 + 2 * k = i + 2 * (k + 1) := by omega
      rw [Function.comp, next]

theorem mac_ok {bytes : List Nat} {no long error : String}
    (read : mac argv n no long error = .ok bytes) :
    ∃ arg, argv[n]? = some arg ∧ arg.IsMac ∧
      bytes = (List.range (arg.chars.length / 2)).map fun k =>
        hexValue 0 ((arg.chars.drop (2 * k)).take 2) := by
  obtain ⟨arg, found, digits⟩ := (returns_mac no long error).mp ⟨bytes, read⟩
  refine ⟨arg, found, digits, ?_⟩
  obtain ⟨given, short, even, -⟩ := digits
  rw [mac, parmLen_eq found, if_neg (by omega), if_neg (by omega), bind_ok] at read
  have half : (arg.chars.length + 1) / 2 = arg.chars.length / 2 := by omega
  rw [half] at read
  simpa using macLoop_ok found (by omega) read

theorem mac_addressAt {bytes : List Nat} {no long error : String}
    (read : mac argv n no long error = .ok bytes) :
    addressAt argv n = some bytes ↔ (addressAt argv n).isSome = true := by
  refine ⟨Option.isSome_of_eq_some, fun complete => ?_⟩
  obtain ⟨arg, found, digits, rfl⟩ := mac_ok read
  rw [addressAt, found, Option.bind_some, address] at complete ⊢
  split at complete
  · next twelve => rw [if_pos twelve, twelve.1]
  · cases complete

end Parsers

/-! ## The commands -/

section Commands
variable {argv : List Arg} {data : Data}

theorem next_some {First Next : Type} {first : Option First} {next : First → Option Next}
    {value : First} {result : Next} (here : first = some value) (later : next value = some result) :
    (first >>= next) = some result := by
  rw [here]
  exact later

theorem setPortConfig_ok (accepted : setPortConfig argv = .ok data) :
    documented argv .setlearning = some data := by
  obtain ⟨-, -, accepted⟩ := bind_eq_ok accepted
  obtain ⟨parm2, read2, accepted⟩ := bind_eq_ok accepted
  obtain ⟨parm3, read3, accepted⟩ := bind_eq_ok accepted
  cases accepted
  refine next_some (digit_numberAt (by decide) read2) ?_
  exact next_some (digit_numberAt (by decide) read3) rfl

theorem setPortEnable_ok (accepted : setPortEnable argv = .ok data) :
    documented argv .setportenable = some data := by
  obtain ⟨-, -, accepted⟩ := bind_eq_ok accepted
  obtain ⟨parm2, read2, accepted⟩ := bind_eq_ok accepted
  obtain ⟨parm3, read3, accepted⟩ := bind_eq_ok accepted
  obtain ⟨parm4, read4, accepted⟩ := bind_eq_ok accepted
  cases accepted
  refine next_some (digit_numberAt (by decide) read2) ?_
  refine next_some (digit_numberAt (by decide) read3) ?_
  exact next_some (digit_numberAt (by decide) read4) rfl

theorem setP0Forward_ok (accepted : setP0Forward argv = .ok data) :
    documented argv .setp0forward = some data := by
  obtain ⟨-, -, accepted⟩ := bind_eq_ok accepted
  obtain ⟨parm2, read2, accepted⟩ := bind_eq_ok accepted
  obtain ⟨parm3, read3, accepted⟩ := bind_eq_ok accepted
  obtain ⟨parm4, read4, accepted⟩ := bind_eq_ok accepted
  cases accepted
  refine next_some (digit_numberAt (by decide) read2) ?_
  refine next_some (digit_numberAt (by decide) read3) ?_
  exact next_some (digit_numberAt (by decide) read4) rfl

theorem setIpSnoop_ok (accepted : setIpSnoop argv = .ok data) :
    documented argv .setipsnoop = some data := by
  obtain ⟨-, -, accepted⟩ := bind_eq_ok accepted
  obtain ⟨parm2, read2, accepted⟩ := bind_eq_ok accepted
  obtain ⟨parm3, read3, accepted⟩ := bind_eq_ok accepted
  obtain ⟨parm4, read4, accepted⟩ := bind_eq_ok accepted
  cases accepted
  refine next_some (digit_numberAt (by decide) read2) ?_
  refine next_some (digit_numberAt (by decide) read3) ?_
  exact next_some (hex_numberAt read4) rfl

theorem setVlanOutput_ok (accepted : setVlanOutput argv = .ok data) :
    documented argv .setvlanoutput = some data := by
  obtain ⟨parm2, read2, accepted⟩ := bind_eq_ok accepted
  obtain ⟨parm3, read3, accepted⟩ := bind_eq_ok accepted
  cases accepted
  refine next_some (digit_numberAt (by decide) read2) ?_
  exact next_some (digit_numberAt (by decide) read3) rfl

theorem next_iff {First Next : Type} {first : Option First} {next : First → Option Next}
    {value : First} {result : Next} {good : Prop} (here : first = some value ↔ first.isSome = true)
    (later : next value = some result ↔ good) :
    (first >>= next) = some result ↔ first.isSome = true ∧ good := by
  cases first with
  | none => simp
  | some other =>
      obtain rfl := Option.some.inj (here.mpr rfl)
      exact later.trans (and_iff_right rfl).symm

theorem next_eq {First Next : Type} {first : Option First} {next : First → Option Next}
    {value : First} {result : Next} {good : Prop} (here : first = some value)
    (later : next value = some result ↔ good) : (first >>= next) = some result ↔ good := by
  rw [here]
  exact later

/-- The parser takes sixteen bits for the twelve that are documented. -/
theorem setVlanInput_ok (accepted : setVlanInput argv = .ok data) :
    documented argv .setvlaninput = some data ↔ (numberAt argv 5 0xfff).isSome = true := by
  obtain ⟨-, -, accepted⟩ := bind_eq_ok accepted
  obtain ⟨parm2, read2, accepted⟩ := bind_eq_ok accepted
  obtain ⟨parm3, read3, accepted⟩ := bind_eq_ok accepted
  obtain ⟨parm4, read4, accepted⟩ := bind_eq_ok accepted
  obtain ⟨parm5, read5, accepted⟩ := bind_eq_ok accepted
  obtain ⟨parm6, read6, accepted⟩ := bind_eq_ok accepted
  obtain ⟨parm7, read7, accepted⟩ := bind_eq_ok accepted
  cases accepted
  refine next_eq (digit_numberAt (by decide) read2) ?_
  refine next_eq (digit_numberAt (by decide) read3) ?_
  refine (next_iff (numberAt_narrow (hex_numberAt read4)) (iff_of_true ?_ trivial)).trans
    (and_iff_left trivial)
  refine next_some (digit_numberAt (by decide) read5) ?_
  refine next_some (hex_numberAt read6) ?_
  exact next_some (digit_numberAt (by decide) read7) rfl

theorem setPortMirror_ok (accepted : setPortMirror argv = .ok data) :
    documented argv .setportmirror = some data ↔
      (addressAt argv 11).isSome = true ∧ (addressAt argv 12).isSome = true := by
  obtain ⟨-, -, accepted⟩ := bind_eq_ok accepted
  obtain ⟨config, parms, accepted⟩ := bind_eq_ok accepted
  obtain ⟨parm12, read12, accepted⟩ := bind_eq_ok accepted
  obtain ⟨parm2, read2, parms⟩ := bind_eq_ok parms
  obtain ⟨parm3, read3, parms⟩ := bind_eq_ok parms
  obtain ⟨parm4, read4, parms⟩ := bind_eq_ok parms
  obtain ⟨parm5, read5, parms⟩ := bind_eq_ok parms
  obtain ⟨parm6, read6, parms⟩ := bind_eq_ok parms
  obtain ⟨parm7, read7, parms⟩ := bind_eq_ok parms
  obtain ⟨parm8, read8, parms⟩ := bind_eq_ok parms
  obtain ⟨parm9, read9, parms⟩ := bind_eq_ok parms
  obtain ⟨mac0, source, parms⟩ := bind_eq_ok parms
  obtain ⟨mac1, destination, parms⟩ := bind_eq_ok parms
  cases parms
  cases accepted
  refine next_eq (digit_numberAt (by decide) read2) ?_
  refine next_eq (digit_numberAt (by decide) read3) ?_
  refine next_eq (digit_numberAt (by decide) read4) ?_
  refine next_eq (digit_numberAt (by decide) read5) ?_
  refine next_eq (digit_numberAt (by decide) read6) ?_
  refine next_eq (digit_numberAt (by decide) read7) ?_
  refine next_eq (digit_numberAt (by decide) read8) ?_
  refine next_eq (digit_numberAt (by decide) read9) ?_
  refine next_iff (mac_addressAt source) ?_
  refine (next_iff (mac_addressAt destination) (iff_of_true ?_ trivial)).trans
    (and_iff_left trivial)
  exact next_some (digit_numberAt (by decide) read12) rfl

theorem compareNum_short {value : Nat} (read : compareNum argv = .ok value) :
    ∃ arg, argv[6]? = some arg ∧ arg.get 1 = '\x00' := by
  obtain ⟨second, char, read⟩ := bind_eq_ok read
  obtain ⟨arg, found, rfl⟩ := charAt_ok char
  refine ⟨arg, found, ?_⟩
  split at read
  · cases read
  · next ended => exact not_not.mp ended

/-- The number to compare is the mode, so that it is right where both arguments are equal. -/
theorem setPortSnoop_ok (accepted : setPortSnoop argv = .ok data) :
    documented argv .setportsnoop = some data ↔
      argv[6]?.map Arg.chars = argv[4]?.map Arg.chars := by
  obtain ⟨-, -, accepted⟩ := bind_eq_ok accepted
  obtain ⟨parm2, read2, accepted⟩ := bind_eq_ok accepted
  obtain ⟨parm3, read3, accepted⟩ := bind_eq_ok accepted
  obtain ⟨parm4, read4, accepted⟩ := bind_eq_ok accepted
  obtain ⟨parm5, read5, accepted⟩ := bind_eq_ok accepted
  cases accepted
  obtain ⟨mode, modeFound, digit, rfl⟩ := digit_ok_iff.mp read3
  obtain ⟨again, sameFound, rfl⟩ := compareNum_ok read5
  obtain rfl := Option.some.inj (sameFound.symm.trans modeFound)
  have modeAt : numberAt argv 4 3 = some _ := digit_numberAt (by decide) read3
  obtain ⟨other, otherFound, ended⟩ := compareNum_short read5
  refine next_eq (digit_numberAt (by decide) read2) ?_
  refine next_eq modeAt ?_
  refine next_eq (hex_numberAt read4) ?_
  constructor
  · intro asked
    obtain ⟨value, denoted, same⟩ := Option.bind_eq_some_iff.mp asked
    cases same
    rw [otherFound, modeFound, Option.map_some, Option.map_some, digit.chars_eq]
    obtain ⟨given, hex, value, inside⟩ := numberAt_found otherFound denoted
    exact congrArg some (single_chars (by decide) ended digit given hex value inside)
  · intro same
    have here : numberAt argv 6 3 = numberAt argv 4 3 := numberAt_congr same 3
    exact next_some (here.trans modeAt) rfl

/-- What an accepted run passes on is what the branch of its command has read. -/
theorem main_data {command : Command} {request : Request} (given : Commands argv command)
    (accepted : main argv = .ok request) :
    branch argv command = .ok request.data ∧ request.code = command.code := by
  obtain ⟨text, two, known⟩ := given
  obtain ⟨-, -, accepted⟩ := bind_eq_ok accepted
  obtain ⟨name, -, accepted⟩ := bind_eq_ok accepted
  obtain ⟨-, -, accepted⟩ := bind_eq_ok accepted
  rw [argument_eq two, bind_ok, commandOf_eq_some.mpr known] at accepted
  obtain ⟨data, read, accepted⟩ := bind_eq_ok accepted
  cases accepted
  exact ⟨read, rfl⟩

/-- Only three commands can do harm. -/
theorem harmless_other {command : Command} (snoop : command ≠ .setportsnoop)
    (input : command ≠ .setvlaninput) (mirror : command ≠ .setportmirror) :
    Harmless argv command :=
  ⟨fun same => absurd same snoop, fun same => absurd same input,
    fun same => absurd same mirror, fun same => absurd same mirror⟩

end Commands

/-- An accepted run passes on what its arguments denote within their ranges, unless it reads
the number to compare from the argument of the mode, takes more than twelve bits of a VLAN
id or leaves bytes of a MAC address unset. -/
theorem settings_iff {argv : List Arg} {command : Command} {request : Request}
    (setting : command ∈ settings) (given : Commands argv command)
    (accepted : main argv = .ok request) :
    documented argv command = some request.data ↔ Harmless argv command := by
  have read := (main_data given accepted).1
  have ordinary {command : Command} (right : documented argv command = some request.data)
      (snoop : command ≠ .setportsnoop) (input : command ≠ .setvlaninput)
      (mirror : command ≠ .setportmirror) :
      documented argv command = some request.data ↔ Harmless argv command :=
    iff_of_true right (harmless_other snoop input mirror)
  cases command with
  | setlearning | setblocking | setmutilcast | setbroadcast =>
      exact ordinary (setPortConfig_ok read) (by decide) (by decide) (by decide)
  | setportenable => exact ordinary (setPortEnable_ok read) (by decide) (by decide) (by decide)
  | setp0forward => exact ordinary (setP0Forward_ok read) (by decide) (by decide) (by decide)
  | setipsnoop => exact ordinary (setIpSnoop_ok read) (by decide) (by decide) (by decide)
  | setvlanoutput => exact ordinary (setVlanOutput_ok read) (by decide) (by decide) (by decide)
  | setportsnoop =>
      refine (setPortSnoop_ok read).trans ⟨fun same => ?_, fun harmless => harmless.compareNum rfl⟩
      exact ⟨fun _ => same, nofun, nofun, nofun⟩
  | setvlaninput =>
      refine (setVlanInput_ok read).trans ⟨fun inside => ?_, fun harmless => ?_⟩
      · exact ⟨nofun, fun _ => inside, nofun, nofun⟩
      · exact harmless.portVlanid rfl
  | setportmirror =>
      refine (setPortMirror_ok read).trans ⟨fun macs => ?_, fun harmless => ?_⟩
      · exact ⟨nofun, nofun, fun _ => macs.1, fun _ => macs.2⟩
      · exact ⟨harmless.srcMac rfl, harmless.desMac rfl⟩
  | _ => exact absurd setting (by decide)

theorem clean_takeWhile (text : Text) : '\x00' ∉ text.takeWhile (· ≠ '\x00') := by
  intro member
  have other := List.mem_takeWhile_imp member
  exact of_decide_eq_true other rfl

/-- The text up to its end, with nothing but zeros behind it. -/
def Arg.plain (text : Text) : Arg :=
  .of (text.takeWhile (· ≠ '\x00')) (clean_takeWhile text)

/-- `mxc_l2switch_test eth0 setportsnoop 0 mode 50 number`. -/
def portSnoopArgs (mode number : Char) : List Arg :=
  [.plain ['m', 'x', 'c', '_', 'l', '2', 's', 'w', 'i', 't', 'c', 'h', '_', 't', 'e', 's', 't'],
    .plain ['e', 't', 'h', '0'], .plain (Command.text .setportsnoop), .plain ['0'], .plain [mode],
    .plain ['5', '0'], .plain [number]]

theorem settings_equal_arguments :
    documented (portSnoopArgs '2' '2') .setportsnoop = some (.portsnoopConfig 0 2 0x50 2) ↔
      Harmless (portSnoopArgs '2' '2') .setportsnoop :=
  settings_iff (by decide) ⟨_, rfl, rfl⟩
    (show main _ = .ok ⟨0x9107, ['e', 't', 'h', '0'], .portsnoopConfig 0 2 0x50 2⟩ from rfl)

theorem portSnoop_other_number :
    ¬ ∀ (argv : List Arg) (command : Command) (request : Request), command ∈ settings →
      Commands argv command → main argv = .ok request →
        documented argv command = some request.data := by
  intro right
  have wrong := right (portSnoopArgs '1' '2') .setportsnoop
    ⟨0x9107, ['e', 't', 'h', '0'], .portsnoopConfig 0 1 0x50 1⟩ (by decide) ⟨_, rfl, rfl⟩ rfl
  exact absurd wrong (by decide)

end ImxTest.L2switch
