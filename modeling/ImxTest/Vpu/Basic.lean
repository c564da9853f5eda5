import Mathlib.Data.List.Basic
import Mathlib.Tactic.Common

/-!
# Constants of `vpu_test.h` and the contract of `vpu_read`

The bitstream is read through one function, `vpu_read`, which reads a file or
the network.  Its callers see a count, the bytes stored at the address they
passed, and a source that has moved on.
-/

set_option autoImplicit false

namespace ImxTest.Vpu

abbrev Byte : Type := UInt8

def streamBufSize : Nat := 0x200000

def streamFillSize : Nat := 0x40000

def streamEndSize : Nat := 0

def mjpgFillSize : Nat := 8 * 1024

def defaultPktSize : Nat := 0x28000

def eagain : Int := 11

/-- What one call of `vpu_read` gives back: its return value and the bytes it
stored from the target address on. -/
structure ReadResult where
  nread : Int
  bytes : List Byte
  deriving DecidableEq, Repr

/-- The contract of `vpu_read(cmd, buf, n)`.  A count is the number of bytes
stored, at most the requested one; `-EAGAIN` stores nothing; a failing read may
have stored some bytes before it failed. -/
def ReadContract (n : Nat) (result : ReadResult) : Prop :=
  result.bytes.length ≤ n ∧
    (0 ≤ result.nread → (result.bytes.length : Int) = result.nread) ∧
    (result.nread = -eagain → result.bytes = [])

instance (n : Nat) (result : ReadResult) : Decidable (ReadContract n result) :=
  inferInstanceAs (Decidable (_ ∧ _ ∧ _))

/-- A source of bytes behind `vpu_read`; every choice the file or the network
makes is part of its state. -/
structure VpuRead (Source : Type) where
  read : Source → Nat → ReadResult × Source
  contract : ∀ source n, ReadContract n (read source n).1

/-- A source that answers from a script and is at its end after it.  An answer
that the contract excludes for the request is taken as end of input. -/
def scriptedRead : VpuRead (List ReadResult) where
  read
    | [], _ => (⟨0, []⟩, [])
    | answer :: rest, n => if ReadContract n answer then (answer, rest) else (⟨0, []⟩, rest)
  contract := by
    intro source n
    have atEnd : ReadContract n ⟨0, []⟩ := by simp [ReadContract]
    cases source with
    | nil => exact atEnd
    | cons answer rest =>
        by_cases kept : ReadContract n answer
        · simp only [if_pos kept]
          exact kept
        · simp only [if_neg kept]
          exact atEnd

end ImxTest.Vpu
