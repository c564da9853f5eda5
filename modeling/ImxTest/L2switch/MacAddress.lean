import ImxTest.L2switch.Settings

/-!
# MAC addresses

A MAC address is read up to its terminator, two digits for a byte.  The length is only
bounded from above, so that one of fewer digits is taken too and the last bytes of the six
keep what was on the stack.
-/

set_option autoImplicit false

namespace ImxTest.L2switch

open ImxTest.Lib.CString ImxTest.Lib.Exits

inductive Slot where
  | mirrorSource | mirrorDestination | staticTable
  deriving DecidableEq, Repr

namespace Slot

def index : Slot → Nat
  | mirrorSource => 11
  | mirrorDestination => 12
  | staticTable => 3

def command : Slot → Command
  | mirrorSource | mirrorDestination => .setportmirror
  | staticTable => .setmacstatictable

def bytes : Slot → Data → Option (List Nat)
  | mirrorSource, .portMirrorConfig _ _ _ _ _ _ _ _ srcMac _ _ => some srcMac
  | mirrorDestination, .portMirrorConfig _ _ _ _ _ _ _ _ _ desMac _ => some desMac
  | staticTable, .updateStaticMACtable macAddr _ _ => some macAddr
  | _, _ => none

/-- The parameters of the command, and which arguments its parsers take. -/
def parameters : Slot → List (Nat × (Arg → Prop))
  | mirrorSource | mirrorDestination =>
      [(3, Arg.IsDigit '2'), (4, Arg.IsDigit '2'), (5, Arg.IsDigit '1'), (6, Arg.IsDigit '1'),
        (7, Arg.IsDigit '1'), (8, Arg.IsDigit '1'), (9, Arg.IsDigit '1'), (10, Arg.IsDigit '1'),
        (11, Arg.IsMac), (12, Arg.IsMac), (13, Arg.IsDigit '1')]
  | staticTable => [(3, Arg.IsMac), (4, Arg.IsDigit '7'), (5, Arg.IsDigit '7')]

end Slot

def Arg.IsAddress (arg : Arg) : Prop :=
  arg.chars.length = 12 ∧ IsHex arg.chars

/-- A run of the command of the slot in which all is right but, it may be, the address. -/
structure Offer (slot : Slot) where
  argv : List Arg
  given : Commands argv slot.command
  text : Arg
  here : argv[slot.index]? = some text
  others : ∀ parameter ∈ slot.parameters, parameter.1 ≠ slot.index →
    Has argv parameter.1 parameter.2

/-- The address is taken if it is complete, and its digits make up the six bytes. -/
structure Complete {slot : Slot} (offer : Offer slot) : Prop where
  taken : Returns (main offer.argv) ↔ offer.text.IsAddress
  written : ∀ request, main offer.argv = .ok request → ∃ bytes,
    slot.bytes request.data = some bytes ∧ bytes.length = 6 ∧
      ∀ k < 6, bytes[k]? = some (hexValue 0 ((offer.text.chars.drop (2 * k)).take 2))

/-- Two, four, six, eight or ten digits. -/
structure Arg.IsShortAddress (arg : Arg) : Prop where
  given : arg.chars ≠ []
  short : arg.chars.length < 12
  even : arg.chars.length % 2 = 0
  hex : IsHex arg.chars

theorem Arg.isMac_iff (arg : Arg) : arg.IsMac ↔ arg.IsAddress ∨ arg.IsShortAddress := by
  have digits : (∀ c ∈ arg.chars, (hexDigit c).isSome = true) ↔ IsHex arg.chars :=
    forall₂_congr fun c _ => by rw [hexDigit_eq]
  rw [Arg.IsMac, digits, Arg.IsAddress]
  constructor
  · rintro ⟨some, short, even, hex⟩
    by_cases twelve : arg.chars.length = 12
    · exact .inl ⟨twelve, hex⟩
    · exact .inr ⟨List.length_pos_iff.mp some, by omega, even, hex⟩
  · rintro (⟨twelve, hex⟩ | ⟨given, short, even, hex⟩)
    · exact ⟨by omega, by omega, by omega, hex⟩
    · exact ⟨List.length_pos_iff.mpr given, by omega, even, hex⟩

section Accepts
variable {argv : List Arg}

theorem returns_needs (count : Nat) : Returns (needs argv count) ↔ count ≤ argv.length := by
  rw [needs]
  split
  · next few => exact iff_of_false (not_returns_error _) (by omega)
  · next enough => exact iff_of_true ⟨(), rfl⟩ (by omega)

theorem Has.lt_length {n : Nat} {property : Arg → Prop} (has : Has argv n property) :
    n < argv.length := by
  obtain ⟨arg, found, -⟩ := has
  exact (List.getElem?_eq_some_iff.mp found).choose

theorem returns_main {command : Command} (given : Commands argv command) :
    Returns (main argv) ↔ Returns (branch argv command) := by
  have enough := given.lt_length
  obtain ⟨text, two, known⟩ := given
  have one := List.getElem?_eq_getElem (show 1 < argv.length by omega)
  obtain ⟨some, short⟩ := command.text_length
  rw [main_eq one two, if_neg (by rw [known]; omega), if_neg (by rw [known]; omega),
    commandOf_eq_some.mpr known]
  exact (returns_bind Iff.rfl fun data => returns_ok _).trans (and_iff_left trivial)

theorem returns_setPortMirror :
    Returns (setPortMirror argv) ↔ ∀ parameter ∈ Slot.mirrorSource.parameters,
      Has argv parameter.1 parameter.2 := by
  have parts : Returns (setPortMirror argv) ↔ _ :=
    returns_bind (returns_needs 13) fun _ =>
    returns_bind returns_mirrorParms fun config =>
    returns_bind (returns_digit _ _ _) fun parm12 =>
    returns_ok _
  refine parts.trans ?_
  simp only [Slot.parameters, List.forall_mem_cons]
  constructor
  · rintro ⟨-, ⟨h3, h4, h5, h6, h7, h8, h9, h10, h11, h12⟩, h13, -⟩
    exact ⟨h3, h4, h5, h6, h7, h8, h9, h10, h11, h12, h13, List.forall_mem_nil _⟩
  · rintro ⟨h3, h4, h5, h6, h7, h8, h9, h10, h11, h12, h13, -⟩
    exact ⟨h13.lt_length.le, ⟨h3, h4, h5, h6, h7, h8, h9, h10, h11, h12⟩, h13, trivial⟩

theorem returns_updateStaticMac :
    Returns (updateStaticMac argv) ↔ ∀ parameter ∈ Slot.staticTable.parameters,
      Has argv parameter.1 parameter.2 := by
  have parts : Returns (updateStaticMac argv) ↔ _ :=
    returns_bind (returns_needs 6) fun _ =>
    returns_bind (returns_mac _ _ _) fun mac1 =>
    returns_bind (returns_digit _ _ _) fun parm3 =>
    returns_bind (returns_digit _ _ _) fun parm4 =>
    returns_ok _
  refine parts.trans ?_
  simp only [Slot.parameters, List.forall_mem_cons]
  constructor
  · rintro ⟨-, h3, h4, h5, -⟩
    exact ⟨h3, h4, h5, List.forall_mem_nil _⟩
  · rintro ⟨h3, h4, h5, -⟩
    exact ⟨h5.lt_length, h3, h4, h5, trivial⟩

theorem returns_command (slot : Slot) :
    Returns (branch argv slot.command) ↔ ∀ parameter ∈ slot.parameters,
      Has argv parameter.1 parameter.2 := by
  cases slot with
  | mirrorSource | mirrorDestination => exact returns_setPortMirror
  | staticTable => exact returns_updateStaticMac

theorem command_bytes {slot : Slot} {data : Data} (read : branch argv slot.command = .ok data) :
    ∃ bytes no long error, slot.bytes data = some bytes ∧
      mac argv slot.index no long error = .ok bytes := by
  cases slot with
  | staticTable =>
      obtain ⟨-, -, read⟩ := bind_eq_ok read
      obtain ⟨mac1, macRead, read⟩ := bind_eq_ok read
      obtain ⟨parm3, -, read⟩ := bind_eq_ok read
      obtain ⟨parm4, -, read⟩ := bind_eq_ok read
      cases read
      exact ⟨mac1, _, _, _, rfl, macRead⟩
  | mirrorSource | mirrorDestination =>
      obtain ⟨-, -, read⟩ := bind_eq_ok read
      obtain ⟨config, parms, read⟩ := bind_eq_ok read
      obtain ⟨parm12, -, read⟩ := bind_eq_ok read
      obtain ⟨parm2, -, parms⟩ := bind_eq_ok parms
      obtain ⟨parm3, -, parms⟩ := bind_eq_ok parms
      obtain ⟨parm4, -, parms⟩ := bind_eq_ok parms
      obtain ⟨parm5, -, parms⟩ := bind_eq_ok parms
      obtain ⟨parm6, -, parms⟩ := bind_eq_ok parms
      obtain ⟨parm7, -, parms⟩ := bind_eq_ok parms
      obtain ⟨parm8, -, parms⟩ := bind_eq_ok parms
      obtain ⟨parm9, -, parms⟩ := bind_eq_ok parms
      obtain ⟨mac0, source, parms⟩ := bind_eq_ok parms
      obtain ⟨mac1, destination, parms⟩ := bind_eq_ok parms
      cases parms
      cases read
      first
        | exact ⟨mac0, _, _, _, rfl, source⟩
        | exact ⟨mac1, _, _, _, rfl, destination⟩

end Accepts

section Offers
variable {slot : Slot} (offer : Offer slot)

theorem mac_mem_parameters (slot : Slot) : (slot.index, Arg.IsMac) ∈ slot.parameters := by
  cases slot <;> simp [Slot.index, Slot.parameters]

theorem isMac_of_index (slot : Slot) : ∀ parameter ∈ slot.parameters,
    parameter.1 = slot.index → parameter.2 = Arg.IsMac := by
  cases slot <;> simp [Slot.index, Slot.parameters]

/-- With all else right it is the parser of the address that decides. -/
theorem returns_offer : Returns (main offer.argv) ↔ offer.text.IsMac := by
  rw [returns_main offer.given, returns_command]
  constructor
  · intro all
    exact (has_found offer.here _).mp (all _ (mac_mem_parameters slot))
  · intro digits parameter member
    by_cases same : parameter.1 = slot.index
    · rw [isMac_of_index slot parameter member same, same]
      exact ⟨offer.text, offer.here, digits⟩
    · exact offer.others parameter member same

/-- The six bytes are read and nothing else is taken just when the address is not a short
one. -/
theorem complete_iff : Complete offer ↔ ¬ offer.text.IsShortAddress := by
  constructor
  · rintro ⟨taken, -⟩ short
    have mac := (returns_offer offer).mpr (offer.text.isMac_iff.mpr (.inr short))
    have twelve := (taken.mp mac).1
    have less := short.short
    omega
  · intro long
    have exact_taken : offer.text.IsMac ↔ offer.text.IsAddress :=
      offer.text.isMac_iff.trans (or_iff_left long)
    refine ⟨(returns_offer offer).trans exact_taken, fun request accepted => ?_⟩
    have twelve := (exact_taken.mp ((returns_offer offer).mp ⟨request, accepted⟩)).1
    obtain ⟨bytes, no, long, error, written, read⟩ :=
      command_bytes (main_data offer.given accepted).1
    obtain ⟨arg, found, -, value⟩ := mac_ok read
    obtain rfl := Option.some.inj (found.symm.trans offer.here)
    rw [twelve] at value
    refine ⟨bytes, written, by rw [value]; rfl, fun k inside => ?_⟩
    rw [value, List.getElem?_map, List.getElem?_range inside]
    rfl

end Offers

/-- `mxc_l2switch_test eth0 setmacstatictable ab 0 0`. -/
def twoDigits : Offer .staticTable where
  argv := [
    .plain ['m', 'x', 'c', '_', 'l', '2', 's', 'w', 'i', 't', 'c', 'h', '_', 't', 'e', 's', 't'],
    .plain ['e', 't', 'h', '0'], .plain (Command.text .setmacstatictable), .plain ['a', 'b'],
    .plain ['0'], .plain ['0']]
  given := ⟨_, rfl, rfl⟩
  text := .plain ['a', 'b']
  here := rfl
  others := by
    simp only [Slot.parameters, List.forall_mem_cons]
    refine ⟨fun other => absurd rfl other, fun _ => ?_, fun _ => ?_, List.forall_mem_nil _⟩
    · exact ⟨_, rfl, rfl, by decide, by decide⟩
    · exact ⟨_, rfl, rfl, by decide, by decide⟩

theorem twoDigits_taken : ¬ ∀ (slot : Slot) (offer : Offer slot), Complete offer := by
  intro complete
  have taken := (complete .staticTable twoDigits).taken.mp ⟨_, rfl⟩
  exact absurd taken.1 (by decide)

end ImxTest.L2switch
