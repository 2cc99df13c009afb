import SealedMail.Bytes.Basic

/-!
# Bit streams

Compressed data as bits, the lowest bit of each byte first. Reading stops for one of two reasons:
the data ends, or it is wrong.
-/

namespace SealedMail.Gzip

/-- Why reading stopped. -/
inductive Stop where
  | truncated
  /-- The data is wrong, as is known once so many bytes of it are taken. -/
  | corrupt (taken : Nat)
  deriving DecidableEq, Repr

/-- The bits of a byte, the lowest first. -/
def bits (x : UInt8) : List Bool := (List.range 8).map fun i => x.toNat.testBit i

/-- What is left of a bit stream: bits of the byte at hand, and whole bytes. -/
structure BitStream where
  pending : List Bool
  rest : Bytes
  /-- How many bytes came before those in `rest`. -/
  taken : Nat

namespace BitStream


/-- More than the number of bits that are left. -/
def bound (s : BitStream) : Nat := s.pending.length + 8 * s.rest.length + 1

end BitStream

abbrev BitReader := StateT BitStream (Except Stop)

namespace BitReader

def bit : BitReader Bool := fun s =>
  match s.pending, s.rest with
  | bit :: pending, rest => .ok (bit, ⟨pending, rest, s.taken⟩)
  | [], [] => .error .truncated
  | [], x :: rest =>
    match bits x with
    | bit :: pending => .ok (bit, ⟨pending, rest, s.taken + 1⟩)
    | [] => .error .truncated

/-- The number that the next bits write, the lowest first. -/
def number : Nat → BitReader Nat
  | 0 => pure 0
  | width + 1 => do
    let low ← bit
    let high ← number width
    return low.toNat + 2 * high

def corrupt {α : Type} : BitReader α := fun s => .error (.corrupt s.taken)

end BitReader

end SealedMail.Gzip
