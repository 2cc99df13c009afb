import SealedMail.Rsa.Mask
import SealedMail.Rsa.Numbers

/-!
# Signature padding

The digest of a text is hashed once more with a random salt; the result, and the salt masked by it,
fill the bits below the highest one of the modulus. Verifying finds the salt again.
-/

namespace SealedMail.Rsa.Pss

def saltSize : Nat := 64

/-- The digest of a digest and a salt. -/
def saltedDigest (digest salt : Bytes) : Bytes :=
  Sha512.digest (List.replicate 8 0 ++ (digest ++ salt))

/-- Bytes that hold the given number of bits. -/
def sizeOfBits (bits : Nat) : Nat := (bits + 7) / 8

/-- The bits of the first byte that the given number of bits leaves unused. -/
def unusedBits (bits : Nat) : UInt8 := ~~~(0xff >>> UInt8.ofNat (8 * sizeOfBits bits - bits))

/-- The bytes with the unused bits of the first one cleared. -/
def clear (bits : Nat) : Bytes → Bytes
  | [] => []
  | x :: rest => (x &&& ~~~unusedBits bits) :: rest

/-- The fewest bytes that a padded digest needs. -/
def minSize : Nat := Sha512.size + saltSize + 2

/-- The digest of a text, padded to the given number of bits. -/
def pad? (bits : Nat) (salt text : Bytes) : Option Bytes :=
  let size := sizeOfBits bits
  if minSize ≤ size then
    let hash := saltedDigest (Sha512.digest text) salt
    let data := List.replicate (size - minSize) 0 ++ 1 :: salt
    some (clear bits (Bytes.xor data (mask hash data.length)) ++ (hash ++ [0xbc]))
  else none

/-- The bytes are the padded digest of a text. -/
def isPadded (bits : Nat) (text padded : Bytes) : Bool :=
  let size := sizeOfBits bits
  let dataSize := size - Sha512.size - 1
  let masked := padded.take dataSize
  let hash := (padded.drop dataSize).take Sha512.size
  let data := clear bits (Bytes.xor masked (mask hash dataSize))
  let zeros := size - minSize
  let salt := data.drop (zeros + 1)
  minSize ≤ size && padded.length == size && padded.getLast? == some 0xbc &&
    masked.headD 0 &&& unusedBits bits == 0 &&
    data.take (zeros + 1) == List.replicate zeros 0 ++ [1] &&
    hash == saltedDigest (Sha512.digest text) salt

def sign? (key : PrivateNumbers) (salt text : Bytes) : Option Bytes := do
  let padded ← pad? (key.toPublic.bits - 1) salt text
  let root ← key.root? (Bytes.toNat padded)
  return Bytes.ofNat key.toPublic.size root

def verify (key : PublicNumbers) (text signature : Bytes) : Bool :=
  let bits := key.bits - 1
  let n := Bytes.toNat signature
  signature.length == key.size && n < key.modulus &&
    -- one byte less where the bits below the highest one fill whole bytes
    isPadded bits text
      ((Bytes.ofNat key.size (key.raise n)).drop (key.size - sizeOfBits bits))

end SealedMail.Rsa.Pss
