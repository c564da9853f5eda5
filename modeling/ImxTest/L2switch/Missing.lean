import ImxTest.Lib.Exits
import ImxTest.L2switch.Arguments

/-!
# Arguments that are not there

The guard of a branch should cover every argument that the branch reads.  Two of them do
not: there is no guard for the VLAN output, and that of the port mirror is one short.
The main result says from the arguments alone when the tool reads past the last of them.
-/

set_option autoImplicit false

namespace ImxTest.L2switch

open ImxTest.Lib.CString ImxTest.Lib.Exits

/-! ## Runs that find every argument -/

def Exit.IsMissing (stop : Exit) : Prop :=
  ∃ n, stop = .missing n

/-- The run ends where it reads an argument that is not there. -/
abbrev Missing {Value : Type} (run : Run Value) : Prop :=
  EndsIn Exit.IsMissing run

theorem finds_usage {Value : Type} : ¬ Missing (.error .usage : Run Value) := by
  rw [Missing, endsIn_error]
  rintro ⟨n, ended⟩
  cases ended

theorem finds_message {Value : Type} (text : String) :
    ¬ Missing (.error (.message text) : Run Value) := by
  rw [Missing, endsIn_error]
  rintro ⟨n, ended⟩
  cases ended

section Finds
variable {argv : List Arg} {n : Nat}

theorem finds_argument (present : n < argv.length) : ¬ Missing (argument argv n) := by
  rw [argument, List.getElem?_eq_getElem present]
  exact not_endsIn_ok _

theorem finds_charAt (present : n < argv.length) (i : Nat) : ¬ Missing (charAt argv n i) :=
  not_endsIn_bind (finds_argument present) fun _ => not_endsIn_ok _

theorem finds_digit (present : n < argv.length) (last : Char) (long error : String) :
    ¬ Missing (digit argv n last long error) := by
  refine not_endsIn_bind (finds_charAt present 1) fun second => ?_
  split
  · exact finds_message _
  · refine not_endsIn_bind (finds_charAt present 0) fun first => ?_
    split
    · exact not_endsIn_ok _
    · exact finds_message _

theorem finds_findEnd (present : n < argv.length) (left i : Nat) :
    ¬ Missing (findEnd argv n left i) := by
  induction left generalizing i with
  | zero => exact not_endsIn_ok _
  | succ left ih =>
      refine not_endsIn_bind (finds_charAt present i) fun c => ?_
      split
      · exact not_endsIn_ok _
      · exact ih (i + 1)

theorem finds_parmLen (present : n < argv.length) (most : Nat) (no long : String) :
    ¬ Missing (parmLen argv n most no long) := by
  refine not_endsIn_bind (finds_findEnd present _ _) fun found => ?_
  split
  · exact finds_message _
  · exact finds_message _
  · exact not_endsIn_ok _

theorem finds_hexAt (present : n < argv.length) (i : Nat) (error : String) :
    ¬ Missing (hexAt argv n i error) := by
  refine not_endsIn_bind (finds_charAt present i) fun c => ?_
  split
  · exact finds_message _
  · exact not_endsIn_ok _

theorem finds_hexLoop (present : n < argv.length) (len : Nat) (bound : Option Nat)
    (ordinal : String) (left i parm : Nat) :
    ¬ Missing (hexLoop argv n len bound ordinal left i parm) := by
  induction left generalizing i parm with
  | zero => exact not_endsIn_ok _
  | succ left ih =>
      refine not_endsIn_bind (finds_hexAt present i ordinal) fun value => ?_
      dsimp only
      split
      · exact finds_message _
      · exact ih _ _

theorem finds_hex (present : n < argv.length) (most : Nat) (bound : Option Nat)
    (no long error : String) : ¬ Missing (hex argv n most bound no long error) :=
  not_endsIn_bind (finds_parmLen present _ _ _) fun _ => finds_hexLoop present _ _ _ _ _ _

theorem finds_macLoop (present : n < argv.length) (error : String) (left i : Nat) :
    ¬ Missing (macLoop argv n error left i) := by
  induction left generalizing i with
  | zero => exact not_endsIn_ok _
  | succ left ih =>
      refine not_endsIn_bind (finds_hexAt present i error) fun high => ?_
      refine not_endsIn_bind (finds_hexAt present (i + 1) error) fun low => ?_
      exact not_endsIn_bind (ih (i + 2)) fun rest => not_endsIn_ok _

theorem finds_mac (present : n < argv.length) (no long error : String) :
    ¬ Missing (mac argv n no long error) :=
  not_endsIn_bind (finds_parmLen present _ _ _) fun _ => finds_macLoop present _ _ _

theorem finds_compareNum (present : 6 < argv.length) : ¬ Missing (compareNum argv) := by
  refine not_endsIn_bind (finds_charAt present 1) fun second => ?_
  split
  · exact finds_message _
  · refine not_endsIn_bind (finds_charAt present 0) fun first => ?_
    split
    · refine not_endsIn_bind (finds_charAt (by omega) 0) fun other => ?_
      split
      · exact not_endsIn_ok _
      · exact finds_message _
    · exact finds_message _

/-- A guard gives the arguments that it asks for to what follows. -/
theorem finds_needs {Next : Type} {count : Nat} {next : Unit → Run Next}
    (later : count ≤ argv.length → ¬ Missing (next ())) :
    ¬ Missing (needs argv count >>= next) := by
  rw [needs]
  split
  · exact finds_usage
  · exact later (by omega)

end Finds

section Commands
variable (argv : List Arg)

theorem finds_setConfigData : ¬ Missing (setConfigData argv) := by
  refine finds_needs fun enough => ?_
  exact not_endsIn_bind (finds_hex (by omega) _ _ _ _ _) fun _ => not_endsIn_ok _

theorem finds_setPortConfig : ¬ Missing (setPortConfig argv) := by
  refine finds_needs fun enough => ?_
  refine not_endsIn_bind (finds_digit (by omega) _ _ _) fun parm2 => ?_
  exact not_endsIn_bind (finds_digit (by omega) _ _ _) fun parm3 => not_endsIn_ok _

theorem finds_setPortEnable : ¬ Missing (setPortEnable argv) := by
  refine finds_needs fun enough => ?_
  refine not_endsIn_bind (finds_digit (by omega) _ _ _) fun parm2 => ?_
  refine not_endsIn_bind (finds_digit (by omega) _ _ _) fun parm3 => ?_
  exact not_endsIn_bind (finds_digit (by omega) _ _ _) fun parm4 => not_endsIn_ok _

theorem finds_setP0Forward : ¬ Missing (setP0Forward argv) := by
  refine finds_needs fun enough => ?_
  refine not_endsIn_bind (finds_digit (by omega) _ _ _) fun parm2 => ?_
  refine not_endsIn_bind (finds_digit (by omega) _ _ _) fun parm3 => ?_
  exact not_endsIn_bind (finds_digit (by omega) _ _ _) fun parm4 => not_endsIn_ok _

theorem finds_setIpSnoop : ¬ Missing (setIpSnoop argv) := by
  refine finds_needs fun enough => ?_
  refine not_endsIn_bind (finds_digit (by omega) _ _ _) fun parm2 => ?_
  refine not_endsIn_bind (finds_digit (by omega) _ _ _) fun parm3 => ?_
  exact not_endsIn_bind (finds_hex (by omega) _ _ _ _ _) fun parm4 => not_endsIn_ok _

theorem finds_setPortSnoop : ¬ Missing (setPortSnoop argv) := by
  refine finds_needs fun enough => ?_
  refine not_endsIn_bind (finds_digit (by omega) _ _ _) fun parm2 => ?_
  refine not_endsIn_bind (finds_digit (by omega) _ _ _) fun parm3 => ?_
  refine not_endsIn_bind (finds_hex (by omega) _ _ _ _ _) fun parm4 => ?_
  exact not_endsIn_bind (finds_compareNum (by omega)) fun parm5 => not_endsIn_ok _

theorem finds_setVlanInput : ¬ Missing (setVlanInput argv) := by
  refine finds_needs fun enough => ?_
  refine not_endsIn_bind (finds_digit (by omega) _ _ _) fun parm2 => ?_
  refine not_endsIn_bind (finds_digit (by omega) _ _ _) fun parm3 => ?_
  refine not_endsIn_bind (finds_hex (by omega) _ _ _ _ _) fun parm4 => ?_
  refine not_endsIn_bind (finds_digit (by omega) _ _ _) fun parm5 => ?_
  refine not_endsIn_bind (finds_hex (by omega) _ _ _ _ _) fun parm6 => ?_
  exact not_endsIn_bind (finds_digit (by omega) _ _ _) fun parm7 => not_endsIn_ok _

theorem finds_setVlanResolution : ¬ Missing (setVlanResolution argv) := by
  refine finds_needs fun enough => ?_
  refine not_endsIn_bind (finds_hex (by omega) _ _ _ _ _) fun parm2 => ?_
  refine not_endsIn_bind (finds_hex (by omega) _ _ _ _ _) fun parm3 => ?_
  exact not_endsIn_bind (finds_digit (by omega) _ _ _) fun parm4 => not_endsIn_ok _

theorem finds_setVlanVerification : ¬ Missing (setVlanVerification argv) := by
  refine finds_needs fun enough => ?_
  refine not_endsIn_bind (finds_digit (by omega) _ _ _) fun parm2 => ?_
  refine not_endsIn_bind (finds_digit (by omega) _ _ _) fun parm3 => ?_
  exact not_endsIn_bind (finds_digit (by omega) _ _ _) fun parm4 => not_endsIn_ok _

theorem finds_getVlanResolution : ¬ Missing (getVlanResolution argv) := by
  refine finds_needs fun enough => ?_
  exact not_endsIn_bind (finds_hex (by omega) _ _ _ _ _) fun parm2 => not_endsIn_ok _

theorem finds_updateStaticMac : ¬ Missing (updateStaticMac argv) := by
  refine finds_needs fun enough => ?_
  refine not_endsIn_bind (finds_mac (by omega) _ _ _) fun mac1 => ?_
  refine not_endsIn_bind (finds_digit (by omega) _ _ _) fun parm3 => ?_
  exact not_endsIn_bind (finds_digit (by omega) _ _ _) fun parm4 => not_endsIn_ok _

theorem finds_mirrorParms {argv : List Arg} (enough : 13 ≤ argv.length) :
    ¬ Missing (mirrorParms argv) := by
  refine not_endsIn_bind (finds_digit (by omega) _ _ _) fun parm2 => ?_
  refine not_endsIn_bind (finds_digit (by omega) _ _ _) fun parm3 => ?_
  refine not_endsIn_bind (finds_digit (by omega) _ _ _) fun parm4 => ?_
  refine not_endsIn_bind (finds_digit (by omega) _ _ _) fun parm5 => ?_
  refine not_endsIn_bind (finds_digit (by omega) _ _ _) fun parm6 => ?_
  refine not_endsIn_bind (finds_digit (by omega) _ _ _) fun parm7 => ?_
  refine not_endsIn_bind (finds_digit (by omega) _ _ _) fun parm8 => ?_
  refine not_endsIn_bind (finds_digit (by omega) _ _ _) fun parm9 => ?_
  refine not_endsIn_bind (finds_mac (by omega) _ _ _) fun mac0 => ?_
  exact not_endsIn_bind (finds_mac (by omega) _ _ _) fun mac1 => not_endsIn_ok _

/-- All branches but two have guards that cover what they read. -/
theorem finds_branch {command : Command} (notMirror : command ≠ .setportmirror)
    (notOutput : command ≠ .setvlanoutput) : ¬ Missing (branch argv command) := by
  cases command with
  | setportmirror => exact absurd rfl notMirror
  | setvlanoutput => exact absurd rfl notOutput
  | setswtichmode | setbridgecfg => exact finds_setConfigData argv
  | setlearning | setblocking | setmutilcast | setbroadcast => exact finds_setPortConfig argv
  | setportenable => exact finds_setPortEnable argv
  | setp0forward => exact finds_setP0Forward argv
  | setipsnoop => exact finds_setIpSnoop argv
  | setportsnoop => exact finds_setPortSnoop argv
  | setvlaninput => exact finds_setVlanInput argv
  | setresoutionvlan => exact finds_setVlanResolution argv
  | setdomainvlanverify => exact finds_setVlanVerification argv
  | getresoutionvlan => exact finds_getVlanResolution argv
  | setmacstatictable => exact finds_updateStaticMac argv
  | _ => exact not_endsIn_ok _

end Commands

/-! ## Parameters that are accepted -/

/-- The argument `n` is there and has the property. -/
def Has (argv : List Arg) (n : Nat) (property : Arg → Prop) : Prop :=
  ∃ arg, argv[n]? = some arg ∧ property arg

namespace Arg

/-- One character from `0` up to `last`. -/
def IsDigit (last : Char) (arg : Arg) : Prop :=
  arg.get 1 = '\x00' ∧ '0' ≤ arg.get 0 ∧ arg.get 0 ≤ last

def IsMac (arg : Arg) : Prop :=
  1 ≤ arg.chars.length ∧ arg.chars.length ≤ 12 ∧ arg.chars.length % 2 = 0 ∧
    ∀ c ∈ arg.chars, (hexDigit c).isSome = true

end Arg

section Accepted
variable {argv : List Arg} {n : Nat} {arg : Arg}

theorem argument_eq (found : argv[n]? = some arg) : argument argv n = .ok arg := by
  rw [argument, found]

theorem charAt_eq (found : argv[n]? = some arg) (i : Nat) : charAt argv n i = .ok (arg.get i) := by
  rw [charAt, argument_eq found]
  rfl

theorem digit_eq (found : argv[n]? = some arg) (last : Char) (long error : String) :
    digit argv n last long error =
      if arg.get 1 ≠ '\x00' then .error (tooLong long)
      else if '0' ≤ arg.get 0 ∧ arg.get 0 ≤ last then .ok ((arg.get 0).toNat - '0'.toNat)
      else .error (inputError error) := by
  rw [digit, charAt_eq found, charAt_eq found]
  rfl

theorem digit_absent (absent : argv[n]? = none) (last : Char) (long error : String) :
    digit argv n last long error = .error (.missing n) := by
  rw [digit, charAt, argument, absent]
  rfl

theorem has_found (found : argv[n]? = some arg) (property : Arg → Prop) :
    Has argv n property ↔ property arg := by
  constructor
  · rintro ⟨_, there, holds⟩
    rw [found] at there
    cases there
    exact holds
  · exact fun holds => ⟨arg, found, holds⟩

theorem not_has_absent (absent : argv[n]? = none) (property : Arg → Prop) :
    ¬ Has argv n property := by
  rintro ⟨arg, there, -⟩
  rw [absent] at there
  cases there

theorem returns_digit (last : Char) (long error : String) :
    Returns (digit argv n last long error) ↔ Has argv n (Arg.IsDigit last) := by
  cases found : argv[n]? with
  | none =>
      rw [digit_absent found]
      exact iff_of_false (not_returns_error _) (not_has_absent found _)
  | some arg =>
      rw [has_found found, digit_eq found, Arg.IsDigit]
      split
      · next long => exact iff_of_false (not_returns_error _) fun digit => long digit.1
      · next short =>
          split
          · next inside => exact iff_of_true ⟨_, rfl⟩ ⟨not_not.mp short, inside⟩
          · next outside => exact iff_of_false (not_returns_error _) fun digit => outside digit.2

theorem Arg.get_of_lt {i : Nat} (inside : i < arg.chars.length) : arg.get i = arg.chars[i] := by
  rw [get, if_pos inside, List.getElem?_eq_getElem inside]
  rfl

theorem Arg.get_length : arg.get arg.chars.length = '\x00' := by
  rw [get, if_neg (Nat.lt_irrefl _), if_pos rfl]

theorem findEnd_eq (found : argv[n]? = some arg) {left i : Nat} (before : i ≤ arg.chars.length) :
    findEnd argv n left i =
      .ok (if arg.chars.length < i + left then some arg.chars.length else none) := by
  induction left generalizing i with
  | zero =>
      rw [if_neg (by omega)]
      rfl
  | succ left ih =>
      have read : findEnd argv n (left + 1) i =
          if arg.get i = '\x00' then .ok (some i) else findEnd argv n left (i + 1) := by
        rw [findEnd, charAt_eq found]
        rfl
      rw [read]
      by_cases ended : i = arg.chars.length
      · rw [ended, if_pos arg.get_length, if_pos (by omega)]
      · have inside : i < arg.chars.length := by omega
        have other : arg.get i ≠ '\x00' := by
          rw [arg.get_of_lt inside]
          exact fun zero => arg.clean (zero ▸ List.getElem_mem inside)
        have places : i + 1 + left = i + (left + 1) := by omega
        rw [if_neg other, ih inside, Nat.succ_eq_add_one, places]

theorem parmLen_eq (found : argv[n]? = some arg) (most : Nat) (no long : String) :
    parmLen argv n most no long =
      if most < arg.chars.length then .error (tooLong long)
      else if arg.chars.length = 0 then .error (inputNo no)
      else .ok arg.chars.length := by
  rw [parmLen, findEnd_eq found (Nat.zero_le _), Nat.zero_add]
  by_cases long : most < arg.chars.length
  · rw [if_pos long, if_neg (by omega)]
    rfl
  · rw [if_neg long, if_pos (by omega)]
    cases arg.chars.length with
    | zero => rfl
    | succ length => rfl

theorem returns_hexAt (found : argv[n]? = some arg) (i : Nat) (error : String) :
    Returns (hexAt argv n i error) ↔ (hexDigit (arg.get i)).isSome = true := by
  rw [hexAt, charAt_eq found, bind_ok]
  cases hexDigit (arg.get i) with
  | none => exact iff_of_false (not_returns_error _) (by decide)
  | some value => exact iff_of_true ⟨value, rfl⟩ rfl

theorem returns_macLoop (found : argv[n]? = some arg) (error : String) (left i : Nat) :
    Returns (macLoop argv n error left i) ↔
      ∀ j, i ≤ j → j < i + 2 * left → (hexDigit (arg.get j)).isSome = true := by
  induction left generalizing i with
  | zero => exact iff_of_true ⟨[], rfl⟩ fun j above below => by omega
  | succ left ih =>
      have parts := returns_bind (returns_hexAt found i error) fun high =>
        returns_bind (returns_hexAt found (i + 1) error) fun low =>
          returns_bind (ih (i + 2)) fun rest => returns_ok ((high <<< 4 + low) :: rest)
      refine parts.trans ?_
      constructor
      · rintro ⟨high, low, rest, -⟩ j above below
        by_cases here : j = i
        · rw [here]
          exact high
        · by_cases next : j = i + 1
          · rw [next]
            exact low
          · exact rest j (by omega) (by omega)
      · intro all
        exact ⟨all i (by omega) (by omega), all (i + 1) (by omega) (by omega),
          fun j above below => all j (by omega) (by omega), trivial⟩

/-- A digit that is missing from the last pair is read as the terminator. -/
theorem pairs_iff (arg : Arg) :
    (∀ j, 0 ≤ j → j < 0 + 2 * ((arg.chars.length + 1) / 2) →
      (hexDigit (arg.get j)).isSome = true) ↔
      arg.chars.length % 2 = 0 ∧ ∀ c ∈ arg.chars, (hexDigit c).isSome = true := by
  constructor
  · intro all
    have even : arg.chars.length % 2 = 0 := by
      by_contra odd
      have last := all arg.chars.length (Nat.zero_le _) (by omega)
      rw [arg.get_length] at last
      exact absurd last (by decide)
    refine ⟨even, fun c member => ?_⟩
    obtain ⟨j, inside, rfl⟩ := List.mem_iff_getElem.mp member
    rw [← arg.get_of_lt inside]
    exact all j (Nat.zero_le _) (by omega)
  · rintro ⟨even, digits⟩ j - below
    have inside : j < arg.chars.length := by omega
    rw [arg.get_of_lt inside]
    exact digits _ (List.getElem_mem inside)

theorem returns_mac (no long error : String) :
    Returns (mac argv n no long error) ↔ Has argv n Arg.IsMac := by
  cases found : argv[n]? with
  | none =>
      have missing : mac argv n no long error = .error (.missing n) := by
        rw [mac, parmLen, findEnd, charAt, argument, found]
        rfl
      rw [missing]
      exact iff_of_false (not_returns_error _) (not_has_absent found _)
  | some arg =>
      rw [has_found found, mac, parmLen_eq found, Arg.IsMac]
      split
      · next long => exact iff_of_false (not_returns_error _) fun mac => by omega
      · next short =>
          split
          · next empty => exact iff_of_false (not_returns_error _) fun mac => by omega
          · next some =>
              have pairs := (returns_macLoop found error ((arg.chars.length + 1) / 2) 0).trans
                (pairs_iff arg)
              exact pairs.trans
                ⟨fun good => ⟨by omega, by omega, good⟩, fun good => good.2.2⟩

/-- The parameters of the port mirror but for the last are all accepted. -/
structure MirrorAccepted (argv : List Arg) : Prop where
  mirrorPort : Has argv 3 (Arg.IsDigit '2')
  port : Has argv 4 (Arg.IsDigit '2')
  egressEn : Has argv 5 (Arg.IsDigit '1')
  ingressEn : Has argv 6 (Arg.IsDigit '1')
  egressMacSrcEn : Has argv 7 (Arg.IsDigit '1')
  egressMacDesEn : Has argv 8 (Arg.IsDigit '1')
  ingressMacSrcEn : Has argv 9 (Arg.IsDigit '1')
  ingressMacDesEn : Has argv 10 (Arg.IsDigit '1')
  srcMac : Has argv 11 Arg.IsMac
  desMac : Has argv 12 Arg.IsMac

theorem returns_mirrorParms : Returns (mirrorParms argv) ↔ MirrorAccepted argv := by
  have parts : Returns (mirrorParms argv) ↔ _ :=
    returns_bind (returns_digit _ _ _) fun parm2 =>
    returns_bind (returns_digit _ _ _) fun parm3 =>
    returns_bind (returns_digit _ _ _) fun parm4 =>
    returns_bind (returns_digit _ _ _) fun parm5 =>
    returns_bind (returns_digit _ _ _) fun parm6 =>
    returns_bind (returns_digit _ _ _) fun parm7 =>
    returns_bind (returns_digit _ _ _) fun parm8 =>
    returns_bind (returns_digit _ _ _) fun parm9 =>
    returns_bind (returns_mac _ _ _) fun mac0 =>
    returns_bind (returns_mac _ _ _) fun mac1 =>
    returns_ok _
  refine parts.trans ?_
  constructor
  · rintro ⟨h3, h4, h5, h6, h7, h8, h9, h10, h11, h12, -⟩
    exact ⟨h3, h4, h5, h6, h7, h8, h9, h10, h11, h12⟩
  · rintro ⟨h3, h4, h5, h6, h7, h8, h9, h10, h11, h12⟩
    exact ⟨h3, h4, h5, h6, h7, h8, h9, h10, h11, h12, trivial⟩

end Accepted

/-! ## The two branches that read too far -/

section TooFar
variable {argv : List Arg}

theorem missing_digit_iff {n : Nat} (last : Char) (long error : String) :
    Missing (digit argv n last long error) ↔ argv.length ≤ n := by
  constructor
  · intro missing
    by_contra present
    exact finds_digit (Nat.lt_of_not_le present) _ _ _ missing
  · intro absent
    rw [digit_absent (List.getElem?_eq_none absent)]
    exact (endsIn_error _).mpr ⟨n, rfl⟩

theorem missing_setVlanOutput :
    Missing (setVlanOutput argv) ↔
      argv.length ≤ 3 ∨ argv.length ≤ 4 ∧ Has argv 3 (Arg.IsDigit '2') := by
  have read : Missing (setVlanOutput argv) ↔ _ :=
    endsIn_bind_iff (missing_digit_iff _ _ _) (returns_digit _ _ _) fun parm2 =>
    endsIn_bind_iff (missing_digit_iff _ _ _) (returns_digit _ _ _) fun parm3 =>
    iff_of_false (not_endsIn_ok _) not_false
  rw [read, and_false, or_false, and_comm]

/-- The guard asks for thirteen arguments and the last that is read is the fourteenth. -/
theorem missing_setPortMirror :
    Missing (setPortMirror argv) ↔ argv.length = 13 ∧ MirrorAccepted argv := by
  by_cases few : argv.length < 13
  · have ended : setPortMirror argv = .error .usage := by
      rw [setPortMirror, needs, if_pos few]
      rfl
    rw [ended]
    exact iff_of_false finds_usage fun mirror => by omega
  · have entered : setPortMirror argv = (do
        let config ← mirrorParms argv
        let parm12 ← digit argv 13 '1' "13th" "13th"
        return config parm12) := by
      rw [setPortMirror, needs, if_neg few]
      rfl
    have read : Missing (setPortMirror argv) ↔ _ := entered ▸
      endsIn_bind_iff (iff_of_false (finds_mirrorParms (Nat.le_of_not_lt few)) not_false)
        returns_mirrorParms fun config =>
      endsIn_bind_iff (missing_digit_iff _ _ _) (returns_digit _ _ _) fun parm12 =>
      iff_of_false (not_endsIn_ok _) not_false
    rw [read, false_or, and_false, or_false, and_comm]
    have last : argv.length ≤ 13 ↔ argv.length = 13 := by omega
    rw [last]

end TooFar

/-! ## The program -/

theorem commandOf_eq_some {text : Text} {command : Command} :
    commandOf text = some command ↔ text = command.text := by
  constructor
  · intro found
    have matched := List.find?_some found
    exact of_decide_eq_true matched
  · rintro rfl
    cases command <;> decide

def Commands (argv : List Arg) (command : Command) : Prop :=
  Has argv 2 fun arg => arg.chars = command.text

theorem Command.text_length (command : Command) :
    1 ≤ command.text.length ∧ command.text.length ≤ cmdMaxLen := by
  cases command <;> decide

section Program
variable {argv : List Arg}

theorem main_few (few : argv.length < 3) : main argv = .error .usage := by
  rw [main, needs, if_pos few]
  rfl

theorem main_eq {name text : Arg} (one : argv[1]? = some name) (two : argv[2]? = some text) :
    main argv =
      if cmdMaxLen < text.chars.length then .error (tooLong "second")
      else if text.chars.length = 0 then .error (inputNo "second")
      else match commandOf text.chars with
        | none => .ok ⟨0, name.chars, .unset⟩
        | some command => do
            let data ← branch argv command
            return ⟨command.code, name.chars, data⟩ := by
  have enough : ¬ argv.length < 3 := by
    obtain ⟨inside, -⟩ := List.getElem?_eq_some_iff.mp two
    omega
  rw [main, needs, if_neg enough, argument_eq one, argument_eq two, parmLen_eq two]
  split
  · rfl
  · split
    · rfl
    · rfl

/-- The program misses an argument where the branch of its command does. -/
theorem missing_main :
    Missing (main argv) ↔ ∃ command, Commands argv command ∧ Missing (branch argv command) := by
  by_cases few : argv.length < 3
  · rw [main_few few]
    refine iff_of_false finds_usage ?_
    rintro ⟨command, ⟨text, two, -⟩, -⟩
    obtain ⟨inside, -⟩ := List.getElem?_eq_some_iff.mp two
    omega
  have one := List.getElem?_eq_getElem (show 1 < argv.length by omega)
  have two := List.getElem?_eq_getElem (show 2 < argv.length by omega)
  generalize argv[1] = name at one
  generalize argv[2] = text at two
  simp only [Commands, has_found two]
  rw [main_eq one two]
  cases found : commandOf text.chars with
  | none =>
      have unknown : ∀ command : Command, text.chars ≠ command.text := by
        intro command known
        rw [commandOf_eq_some.mpr known] at found
        cases found
      refine iff_of_false ?_ fun ⟨command, known, _⟩ => unknown command known
      split
      · exact finds_message _
      · split
        · exact finds_message _
        · exact not_endsIn_ok _
  | some command =>
      have known := commandOf_eq_some.mp found
      obtain ⟨some, short⟩ := command.text_length
      rw [if_neg (by rw [known]; omega), if_neg (by rw [known]; omega)]
      have only : Missing (branch argv command) ↔
          ∃ other : Command, text.chars = other.text ∧ Missing (branch argv other) := by
        constructor
        · exact fun missing => ⟨command, known, missing⟩
        · rintro ⟨other, same, missing⟩
          have equal := found.symm.trans (commandOf_eq_some.mpr same)
          cases equal
          exact missing
      rw [← only]
      exact endsIn_bind.trans (or_iff_left fun ⟨data, _, missing⟩ => not_endsIn_ok _ missing)

end Program

/-- The arguments cover what the branch of their command reads. -/
structure Covered (argv : List Arg) : Prop where
  vlanOutput : Commands argv .setvlanoutput →
    5 ≤ argv.length ∨ argv.length = 4 ∧ ¬ Has argv 3 (Arg.IsDigit '2')
  portMirror : Commands argv .setportmirror → argv.length = 13 → ¬ MirrorAccepted argv

/-- Without a guard the VLAN output command reads its two parameters, and the guard of
the port mirror does not count its last parameter.  No other run misses an argument. -/
theorem main_finds_iff (argv : List Arg) : ¬ Missing (main argv) ↔ Covered argv := by
  rw [missing_main]
  constructor
  · intro finds
    refine ⟨fun output => ?_, fun mirror length accepted => ?_⟩
    · have found : ¬ Missing (setVlanOutput argv) := fun missing => finds ⟨_, output, missing⟩
      rw [missing_setVlanOutput] at found
      by_cases digit : Has argv 3 (Arg.IsDigit '2')
      · exact .inl (Nat.lt_of_not_le fun few => found (.inr ⟨few, digit⟩))
      · by_cases enough : 5 ≤ argv.length
        · exact .inl enough
        · exact .inr ⟨by omega, digit⟩
    · exact finds ⟨_, mirror, missing_setPortMirror.mpr ⟨length, accepted⟩⟩
  · rintro ⟨output, mirror⟩ ⟨command, commanded, missing⟩
    by_cases isMirror : command = .setportmirror
    · subst isMirror
      obtain ⟨length, accepted⟩ := missing_setPortMirror.mp missing
      exact mirror commanded length accepted
    · by_cases isOutput : command = .setvlanoutput
      · subst isOutput
        have covered := output commanded
        have short := missing_setVlanOutput.mp missing
        rcases covered with enough | ⟨length, noDigit⟩
        · omega
        · rcases short with few | ⟨-, digit⟩
          · omega
          · exact noDigit digit
      · exact finds_branch argv isMirror isOutput missing

/-- An argument with nothing but zeros behind it. -/
def Arg.of (chars : Text) (clean : '\x00' ∉ chars) : Arg :=
  ⟨chars, fun _ => '\x00', clean⟩

/-- `mxc_l2switch_test eth0 setvlanoutput`. -/
def bareVlanOutput : List Arg :=
  [.of ['m', 'x', 'c', '_', 'l', '2', 's', 'w', 'i', 't', 'c', 'h', '_', 't', 'e', 's', 't']
      (by decide), .of ['e', 't', 'h', '0'] (by decide),
    .of (Command.text .setvlanoutput) (by decide)]

theorem bareVlanOutput_missing :
    ¬ ∀ argv : List Arg, 3 ≤ argv.length → ¬ Missing (main argv) := by
  intro never
  exact never bareVlanOutput (by decide) ⟨.missing 3, rfl, 3, rfl⟩

/-! ## The port snoop -/

section PortSnoop
variable {argv : List Arg}

theorem charAt_ok {n i : Nat} {c : Char} (read : charAt argv n i = .ok c) :
    ∃ arg, argv[n]? = some arg ∧ c = arg.get i := by
  cases found : argv[n]? with
  | none =>
      rw [charAt, argument, found] at read
      cases read
  | some arg =>
      rw [charAt_eq found] at read
      cases read
      exact ⟨arg, rfl, rfl⟩

theorem compareNum_ok {value : Nat} (read : compareNum argv = .ok value) :
    ∃ arg, argv[4]? = some arg ∧ value = (arg.get 0).toNat - '0'.toNat := by
  obtain ⟨second, -, read⟩ := bind_eq_ok read
  split at read
  · cases read
  · obtain ⟨first, -, read⟩ := bind_eq_ok read
    split at read
    · obtain ⟨other, char, read⟩ := bind_eq_ok read
      obtain ⟨arg, found, rfl⟩ := charAt_ok char
      split at read
      · cases read
        exact ⟨arg, found, rfl⟩
      · cases read
    · cases read

end PortSnoop

end ImxTest.L2switch
