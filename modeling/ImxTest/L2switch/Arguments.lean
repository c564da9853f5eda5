import ImxTest.Lib.CString

/-!
# The arguments of the L2 switch tool

`main` reads a command from `argv[2]` and its parameters from the arguments after it.
Each command has a guard on `argc` of its own, a branch that takes its parameters one
by one and ends the program at the first that it does not accept, and one `ioctl`.
What `main` prints about its parameters and of the result of the `ioctl` is left out;
such lines read no argument that was not read before.
-/

set_option autoImplicit false

namespace ImxTest.L2switch

open ImxTest.Lib.CString

/-- An argument: a string and what stands behind its terminator. -/
structure Arg where
  chars : Text
  beyond : Nat → Char
  clean : '\x00' ∉ chars

/-- `argv[n][i]` for the argument `n`. -/
def Arg.get (arg : Arg) (i : Nat) : Char :=
  if i < arg.chars.length then (arg.chars[i]?).getD '\x00'
  else if i = arg.chars.length then '\x00'
  else arg.beyond i

/-- How the program ends before the `ioctl`: in `usage`, after a message, or by reading
an argument that is not there. -/
inductive Exit where
  | usage
  | message (text : String)
  | missing (index : Nat)
  deriving DecidableEq, Repr

abbrev Run : Type → Type := Except Exit

inductive Command where
  | setlearning | getlearning | setblocking | getblocking | setmutilcast | getmutilcast
  | setbroadcast | getbroadcast | setswtichmode | getswtichmode | setbridgecfg | getbridgecfg
  | setportenable | getportenable | setp0forward | getp0forward | setipsnoop | getipsnoop
  | setportsnoop | getportsnoop | setportmirror | getportmirror | setvlanoutput | getvlanoutput
  | setvlaninput | getvlaninput | setresoutionvlan | getresoutionvlan | setdomainvlanverify
  | getdomainvlanverify | setmacstatictable | getstatistics | getstatusp0 | getstatusp1
  | getstatusp2 | getstatusoutputqueue
  deriving DecidableEq, Repr

namespace Command

def text : Command → Text
  | .setlearning => ['s', 'e', 't', 'l', 'e', 'a', 'r', 'n', 'i', 'n', 'g']
  | .getlearning => ['g', 'e', 't', 'l', 'e', 'a', 'r', 'n', 'i', 'n', 'g']
  | .setblocking => ['s', 'e', 't', 'b', 'l', 'o', 'c', 'k', 'i', 'n', 'g']
  | .getblocking => ['g', 'e', 't', 'b', 'l', 'o', 'c', 'k', 'i', 'n', 'g']
  | .setmutilcast => ['s', 'e', 't', 'm', 'u', 't', 'i', 'l', 'c', 'a', 's', 't']
  | .getmutilcast => ['g', 'e', 't', 'm', 'u', 't', 'i', 'l', 'c', 'a', 's', 't']
  | .setbroadcast => ['s', 'e', 't', 'b', 'r', 'o', 'a', 'd', 'c', 'a', 's', 't']
  | .getbroadcast => ['g', 'e', 't', 'b', 'r', 'o', 'a', 'd', 'c', 'a', 's', 't']
  | .setswtichmode => ['s', 'e', 't', 's', 'w', 't', 'i', 'c', 'h', 'm', 'o', 'd', 'e']
  | .getswtichmode => ['g', 'e', 't', 's', 'w', 't', 'i', 'c', 'h', 'm', 'o', 'd', 'e']
  | .setbridgecfg => ['s', 'e', 't', 'b', 'r', 'i', 'd', 'g', 'e', 'c', 'f', 'g']
  | .getbridgecfg => ['g', 'e', 't', 'b', 'r', 'i', 'd', 'g', 'e', 'c', 'f', 'g']
  | .setportenable => ['s', 'e', 't', 'p', 'o', 'r', 't', 'e', 'n', 'a', 'b', 'l', 'e']
  | .getportenable => ['g', 'e', 't', 'p', 'o', 'r', 't', 'e', 'n', 'a', 'b', 'l', 'e']
  | .setp0forward => ['s', 'e', 't', 'p', '0', 'f', 'o', 'r', 'w', 'a', 'r', 'd']
  | .getp0forward => ['g', 'e', 't', 'p', '0', 'f', 'o', 'r', 'w', 'a', 'r', 'd']
  | .setipsnoop => ['s', 'e', 't', 'i', 'p', 's', 'n', 'o', 'o', 'p']
  | .getipsnoop => ['g', 'e', 't', 'i', 'p', 's', 'n', 'o', 'o', 'p']
  | .setportsnoop => ['s', 'e', 't', 'p', 'o', 'r', 't', 's', 'n', 'o', 'o', 'p']
  | .getportsnoop => ['g', 'e', 't', 'p', 'o', 'r', 't', 's', 'n', 'o', 'o', 'p']
  | .setportmirror => ['s', 'e', 't', 'p', 'o', 'r', 't', 'm', 'i', 'r', 'r', 'o', 'r']
  | .getportmirror => ['g', 'e', 't', 'p', 'o', 'r', 't', 'm', 'i', 'r', 'r', 'o', 'r']
  | .setvlanoutput => ['s', 'e', 't', 'v', 'l', 'a', 'n', 'o', 'u', 't', 'p', 'u', 't']
  | .getvlanoutput => ['g', 'e', 't', 'v', 'l', 'a', 'n', 'o', 'u', 't', 'p', 'u', 't']
  | .setvlaninput => ['s', 'e', 't', 'v', 'l', 'a', 'n', 'i', 'n', 'p', 'u', 't']
  | .getvlaninput => ['g', 'e', 't', 'v', 'l', 'a', 'n', 'i', 'n', 'p', 'u', 't']
  | .setresoutionvlan =>
      ['s', 'e', 't', 'r', 'e', 's', 'o', 'u', 't', 'i', 'o', 'n', 'v', 'l', 'a', 'n']
  | .getresoutionvlan =>
      ['g', 'e', 't', 'r', 'e', 's', 'o', 'u', 't', 'i', 'o', 'n', 'v', 'l', 'a', 'n']
  | .setdomainvlanverify =>
      ['s', 'e', 't', 'd', 'o', 'm', 'a', 'i', 'n', 'v', 'l', 'a', 'n', 'v', 'e', 'r', 'i', 'f',
        'y']
  | .getdomainvlanverify =>
      ['g', 'e', 't', 'd', 'o', 'm', 'a', 'i', 'n', 'v', 'l', 'a', 'n', 'v', 'e', 'r', 'i', 'f',
        'y']
  | .setmacstatictable =>
      ['s', 'e', 't', 'm', 'a', 'c', 's', 't', 'a', 't', 'i', 'c', 't', 'a', 'b', 'l', 'e']
  | .getstatistics => ['g', 'e', 't', 's', 't', 'a', 't', 'i', 's', 't', 'i', 'c', 's']
  | .getstatusp0 => ['g', 'e', 't', 's', 't', 'a', 't', 'u', 's', 'p', '0']
  | .getstatusp1 => ['g', 'e', 't', 's', 't', 'a', 't', 'u', 's', 'p', '1']
  | .getstatusp2 => ['g', 'e', 't', 's', 't', 'a', 't', 'u', 's', 'p', '2']
  | .getstatusoutputqueue =>
      ['g', 'e', 't', 's', 't', 'a', 't', 'u', 's', 'o', 'u', 't', 'p', 'u', 't', 'q', 'u', 'e',
        'u', 'e']

def code : Command → Nat
  | .setlearning => 0x9101
  | .getlearning => 0x9201
  | .setblocking => 0x9102
  | .getblocking => 0x9202
  | .setmutilcast => 0x9103
  | .getmutilcast => 0x9203
  | .setbroadcast => 0x9104
  | .getbroadcast => 0x9204
  | .setswtichmode => 0x910e
  | .getswtichmode => 0x920e
  | .setbridgecfg => 0x910f
  | .getbridgecfg => 0x920f
  | .setportenable => 0x9105
  | .getportenable => 0x9205
  | .setp0forward => 0x910d
  | .getp0forward => 0x920d
  | .setipsnoop => 0x9106
  | .getipsnoop => 0x9206
  | .setportsnoop => 0x9107
  | .getportsnoop => 0x9207
  | .setportmirror => 0x9108
  | .getportmirror => 0x9208
  | .setvlanoutput => 0x9110
  | .getvlanoutput => 0x9210
  | .setvlaninput => 0x9111
  | .getvlaninput => 0x9211
  | .setresoutionvlan => 0x9113
  | .getresoutionvlan => 0x9213
  | .setdomainvlanverify => 0x9112
  | .getdomainvlanverify => 0x9212
  | .setmacstatictable => 0x9226
  | .getstatistics => 0x9221
  | .getstatusp0 => 0x9222
  | .getstatusp1 => 0x9223
  | .getstatusp2 => 0x9224
  | .getstatusoutputqueue => 0x9225

/-- In the order of the comparisons. -/
def all : List Command :=
  [.setlearning, .getlearning, .setblocking, .getblocking, .setmutilcast, .getmutilcast,
    .setbroadcast, .getbroadcast, .setswtichmode, .getswtichmode, .setbridgecfg, .getbridgecfg,
    .setportenable, .getportenable, .setp0forward, .getp0forward, .setipsnoop, .getipsnoop,
    .setportsnoop, .getportsnoop, .setportmirror, .getportmirror, .setvlanoutput, .getvlanoutput,
    .setvlaninput, .getvlaninput, .setresoutionvlan, .getresoutionvlan, .setdomainvlanverify,
    .getdomainvlanverify, .setmacstatictable, .getstatistics, .getstatusp0, .getstatusp1,
    .getstatusp2, .getstatusoutputqueue]

end Command

inductive Data where
  | configData (value : Nat)
  | portConfig (port enable : Nat)
  | portEnableConfig (port txEnable rxEnable : Nat)
  | p0ForcedForwardConfig (port1 port2 enable : Nat)
  | ipSnoopConfig (num mode ipHeaderProtocol : Nat)
  | portsnoopConfig (num mode comparePort compareNum : Nat)
  | portMirrorConfig (mirrorPort port egressEn ingressEn egressMacSrcEn egressMacDesEn
      ingressMacSrcEn ingressMacDesEn : Nat) (srcMac desMac : List Nat) (mirrorEnable : Nat)
  | vlanOutputConfig (port mode : Nat)
  | vlanInputConfig (port mode portVlanid vlanVerifyEn vlanDomainNum vlanDomainPort : Nat)
  | vlanResoultionTable (portVlanid vlanDomainNum vlanDomainPort : Nat)
  | vlanVerificationConfig (port vlanDomainVerifyEn vlanDiscardUnknownEn : Nat)
  | updateStaticMACtable (macAddr : List Nat) (port priority : Nat)
  /-- Room for the answer of a `get` command. -/
  | answer
  /-- Not set, for a command that is not supported. -/
  | unset
  deriving DecidableEq, Repr

/-- The `ioctl` that is made.  A command that is not known has code 0. -/
structure Request where
  code : Nat
  name : Text
  data : Data
  deriving DecidableEq, Repr

/-! ## Reading arguments -/

section Reading
variable (argv : List Arg)

def argument (n : Nat) : Run Arg :=
  match argv[n]? with
  | none => .error (.missing n)
  | some arg => .ok arg

/-- `argv[n][i]`. -/
def charAt (n i : Nat) : Run Char := do
  let arg ← argument argv n
  return arg.get i

/-- `if (argc < count) usage()`. -/
def needs (count : Nat) : Run Unit :=
  if argv.length < count then .error .usage else .ok ()

def tooLong (ordinal : String) : Exit :=
  .message ("the " ++ ordinal ++ " parm  is too long\n")

def inputError (ordinal : String) : Exit :=
  .message ("the " ++ ordinal ++ " parm is input error\n")

def inputNo (ordinal : String) : Exit :=
  .message ("input no the " ++ ordinal ++ " parm\n")

def inputTooLarge (ordinal : String) : Exit :=
  .message ("the " ++ ordinal ++ " parm input too large\n")

/-- A parameter of one character from `0` up to `last`.  The ordinals are those of the
two messages. -/
def digit (n : Nat) (last : Char) (long error : String) : Run Nat := do
  let second ← charAt argv n 1
  if second ≠ '\x00' then .error (tooLong long)
  else
    let first ← charAt argv n 0
    if '0' ≤ first ∧ first ≤ last then .ok (first.toNat - '0'.toNat)
    else .error (inputError error)

/-- `for (i = 0; i < count; i++)` up to the terminator. -/
def findEnd (n : Nat) : Nat → Nat → Run (Option Nat)
  | 0, _ => .ok none
  | left + 1, i => do
      let c ← charAt argv n i
      if c = '\x00' then .ok (some i) else findEnd n left (i + 1)

/-- The length of a parameter that has up to `most` characters.  Both exits are told by
the ordinal that their messages name. -/
def parmLen (n most : Nat) (no long : String) : Run Nat := do
  let found ← findEnd argv n (most + 1) 0
  match found with
  | none => .error (tooLong long)
  | some 0 => .error (inputNo no)
  | some len => .ok len

def hexDigit (c : Char) : Option Nat :=
  if '0' ≤ c ∧ c ≤ '9' then some (c.toNat - '0'.toNat)
  else if 'a' ≤ c ∧ c ≤ 'f' then some (c.toNat - 'a'.toNat + 10)
  else if 'A' ≤ c ∧ c ≤ 'F' then some (c.toNat - 'A'.toNat + 10)
  else none

def hexAt (n i : Nat) (error : String) : Run Nat := do
  let c ← charAt argv n i
  match hexDigit c with
  | none => .error (inputError error)
  | some value => .ok value

/-- The loop over the digits of a hexadecimal parameter.  With a bound the value is
compared after every digit. -/
def hexLoop (n len : Nat) (bound : Option Nat) (ordinal : String) : Nat → Nat → Nat → Run Nat
  | 0, _, parm => .ok parm
  | left + 1, i, parm => do
      let value ← hexAt argv n i ordinal
      let parm := parm + value <<< ((len - 1 - i) * 4)
      if bound.any fun most => most < parm then .error (inputTooLarge ordinal)
      else hexLoop n len bound ordinal left (i + 1) parm

def hex (n most : Nat) (bound : Option Nat) (no long error : String) : Run Nat := do
  let len ← parmLen argv n most no long
  hexLoop argv n len bound error len 0 0

/-- `for (i = 0, k = 0; i < len; i = i + 2, k++)`. -/
def macLoop (n : Nat) (error : String) : Nat → Nat → Run (List Nat)
  | 0, _ => .ok []
  | left + 1, i => do
      let high ← hexAt argv n i error
      let low ← hexAt argv n (i + 1) error
      let rest ← macLoop n error left (i + 2)
      return ((high <<< 4) + low) :: rest

def mac (n : Nat) (no long error : String) : Run (List Nat) := do
  let len ← parmLen argv n 12 no long
  macLoop argv n error ((len + 1) / 2) 0

/-! ## The commands -/

def setConfigData : Run Data := do
  needs argv 4
  let parm2 ← hex argv 3 8 none "2th" "2th" "3th"
  return .configData parm2

def setPortConfig : Run Data := do
  needs argv 5
  let parm2 ← digit argv 3 '2' "third" "third"
  let parm3 ← digit argv 4 '1' "4th" "4th"
  return .portConfig parm2 parm3

def setPortEnable : Run Data := do
  needs argv 6
  let parm2 ← digit argv 3 '2' "third" "third"
  let parm3 ← digit argv 4 '1' "4th" "4th"
  let parm4 ← digit argv 5 '1' "5th" "5th"
  return .portEnableConfig parm2 parm3 parm4

def setP0Forward : Run Data := do
  needs argv 6
  let parm2 ← digit argv 3 '1' "third" "third"
  let parm3 ← digit argv 4 '1' "4th" "4th"
  let parm4 ← digit argv 5 '1' "4th" "5th"
  return .p0ForcedForwardConfig parm2 parm3 parm4

def setIpSnoop : Run Data := do
  needs argv 6
  let parm2 ← digit argv 3 '7' "third" "third"
  let parm3 ← digit argv 4 '3' "4th" "4th"
  let parm4 ← hex argv 5 2 none "5th" "5th" "5th"
  return .ipSnoopConfig parm2 parm3 parm4

/-- The number to compare: the upper bound and the value are those of `argv[4]`. -/
def compareNum : Run Nat := do
  let second ← charAt argv 6 1
  if second ≠ '\x00' then .error (tooLong "6th")
  else
    let first ← charAt argv 6 0
    if '0' ≤ first then
      let other ← charAt argv 4 0
      if other ≤ '3' then .ok (other.toNat - '0'.toNat) else .error (inputError "6th")
    else .error (inputError "6th")

def setPortSnoop : Run Data := do
  needs argv 7
  let parm2 ← digit argv 3 '7' "third" "third"
  let parm3 ← digit argv 4 '3' "4th" "4th"
  let parm4 ← hex argv 5 4 none "5th" "5th" "5th"
  let parm5 ← compareNum argv
  return .portsnoopConfig parm2 parm3 parm4 parm5

/-- The parameters of the port mirror but for the last. -/
def mirrorParms : Run (Nat → Data) := do
  let parm2 ← digit argv 3 '2' "third" "third"
  let parm3 ← digit argv 4 '2' "4th" "4th"
  let parm4 ← digit argv 5 '1' "5th" "5th"
  let parm5 ← digit argv 6 '1' "6th" "6th"
  let parm6 ← digit argv 7 '1' "7th" "7th"
  let parm7 ← digit argv 8 '1' "8th" "8th"
  let parm8 ← digit argv 9 '1' "9th" "9th"
  let parm9 ← digit argv 10 '1' "10th" "9th"
  let mac0 ← mac argv 11 "10th" "10th" "11th"
  let mac1 ← mac argv 12 "11th" "11th" "12th"
  return .portMirrorConfig parm2 parm3 parm4 parm5 parm6 parm7 parm8 parm9 mac0 mac1

def setPortMirror : Run Data := do
  needs argv 13
  let config ← mirrorParms argv
  let parm12 ← digit argv 13 '1' "13th" "13th"
  return config parm12

/-- There is no guard. -/
def setVlanOutput : Run Data := do
  let parm2 ← digit argv 3 '2' "third" "third"
  let parm3 ← digit argv 4 '3' "4th" "4th"
  return .vlanOutputConfig parm2 parm3

def setVlanInput : Run Data := do
  needs argv 9
  let parm2 ← digit argv 3 '2' "third" "third"
  let parm3 ← digit argv 4 '3' "4th" "4th"
  let parm4 ← hex argv 5 4 none "5th" "5th" "5th"
  let parm5 ← digit argv 6 '1' "6th" "6th"
  let parm6 ← hex argv 7 2 (some 31) "7th" "7th" "7th"
  let parm7 ← digit argv 8 '7' "8th" "8th"
  return .vlanInputConfig parm2 parm3 parm4 parm5 parm6 parm7

def setVlanResolution : Run Data := do
  needs argv 6
  let parm2 ← hex argv 3 4 none "3th" "3th" "3th"
  let parm3 ← hex argv 4 2 (some 31) "4th" "4th" "4th"
  let parm4 ← digit argv 5 '7' "5th" "5th"
  return .vlanResoultionTable parm2 parm3 parm4

def setVlanVerification : Run Data := do
  needs argv 6
  let parm2 ← digit argv 3 '2' "third" "third"
  let parm3 ← digit argv 4 '1' "4th" "4th"
  let parm4 ← digit argv 5 '1' "5th" "5th"
  return .vlanVerificationConfig parm2 parm3 parm4

def getVlanResolution : Run Data := do
  needs argv 4
  let parm2 ← hex argv 3 2 (some 31) "3th" "3th" "3th"
  return .configData parm2

def updateStaticMac : Run Data := do
  needs argv 6
  let mac1 ← mac argv 3 "3th" "3th" "3th"
  let parm3 ← digit argv 4 '7' "4th" "4th"
  let parm4 ← digit argv 5 '7' "5th" "5th"
  return .updateStaticMACtable mac1 parm3 parm4

def branch : Command → Run Data
  | .setswtichmode | .setbridgecfg => setConfigData argv
  | .setlearning | .setblocking | .setmutilcast | .setbroadcast => setPortConfig argv
  | .setportenable => setPortEnable argv
  | .setp0forward => setP0Forward argv
  | .setipsnoop => setIpSnoop argv
  | .setportsnoop => setPortSnoop argv
  | .setportmirror => setPortMirror argv
  | .setvlanoutput => setVlanOutput argv
  | .setvlaninput => setVlanInput argv
  | .setresoutionvlan => setVlanResolution argv
  | .setdomainvlanverify => setVlanVerification argv
  | .getresoutionvlan => getVlanResolution argv
  | .setmacstatictable => updateStaticMac argv
  | _ => .ok .answer

def cmdMaxLen : Nat := 128

def commandOf (text : Text) : Option Command :=
  Command.all.find? fun command => text = command.text

/-- `main` up to the `ioctl`. -/
def main : Run Request := do
  needs argv 3
  let name ← argument argv 1
  let _ ← parmLen argv 2 cmdMaxLen "second" "second"
  let text ← argument argv 2
  match commandOf text.chars with
  | none => return ⟨0, name.chars, .unset⟩
  | some command => do
      let data ← branch argv command
      return ⟨command.code, name.chars, data⟩

end Reading

end ImxTest.L2switch
