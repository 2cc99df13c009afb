import SealedMail.Bytes.Basic

/-!
# Checksums

The cyclic redundancy check of 32 bits that stands behind compressed data, together with the length
of what was compressed. Both can be told of data that comes in parts.
-/

namespace SealedMail.Gzip

/-- Divides the register by the generating polynomial, for the given number of bits. -/
def divide : Nat → UInt32 → UInt32
  | 0, register => register
  | bits + 1, register =>
    divide bits ((register >>> 1) ^^^ (if register &&& 1 = 0 then 0 else 0xedb88320))

/-- What division by the polynomial makes of each byte at the low end of the register. -/
def remainders : Array UInt32 := (Array.range 256).map fun n => divide 8 (UInt32.ofNat n)

/-- The register after one more byte. -/
def advance (register : UInt32) (x : UInt8) : UInt32 :=
  (register >>> 8) ^^^ remainders.getD (register.toUInt8 ^^^ x).toNat 0

/-- What is kept of data that has come so far. -/
structure Checksum where
  register : UInt32
  length : Nat
  deriving DecidableEq

namespace Checksum

def start : Checksum := ⟨0xffffffff, 0⟩

def add (sum : Checksum) (b : Bytes) : Checksum where
  register := b.foldl advance sum.register
  length := sum.length + b.length

@[simp]
theorem add_nil (sum : Checksum) : sum.add [] = sum := rfl

/-- Bytes that come in two parts count as if they came at once. -/
theorem add_append (sum : Checksum) (a b : Bytes) : sum.add (a ++ b) = (sum.add a).add b := by
  simp [add, Nat.add_assoc]

def value (sum : Checksum) : UInt32 := sum.register ^^^ 0xffffffff

/-- The bytes that stand behind compressed data. -/
def trailer (sum : Checksum) : Bytes :=
  (Bytes.ofUInt32 sum.value).reverse ++ (Bytes.ofNat 4 sum.length).reverse

end Checksum

def checksum (b : Bytes) : Checksum := Checksum.start.add b

end SealedMail.Gzip
