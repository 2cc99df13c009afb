import SealedMail.Rsa.Mask
import SealedMail.Rsa.Numbers

/-!
# Encryption padding

A short text is padded to the size of the modulus and masked with a random seed, the seed in turn
with the masked text, so that equal texts encrypt to different numbers.
-/

namespace SealedMail.Rsa.Oaep

/-- The digest of the label, which is empty. -/
def labelDigest : Bytes := Sha512.digest []

def maxLength (size : Nat) : Nat := size - 2 * Sha512.size - 2

def pad (size : Nat) (seed text : Bytes) : Bytes :=
  let zeros := List.replicate (maxLength size - text.length) 0
  let data := labelDigest ++ (zeros ++ 1 :: text)
  let masked := Bytes.xor data (mask seed data.length)
  0 :: (Bytes.xor seed (mask masked seed.length) ++ masked)

/-- The text behind zeros and a one. -/
def unpadText? (b : Bytes) : Option Bytes :=
  match b.dropWhile (· = 0) with
  | 1 :: text => some text
  | _ => none

def unpad? : Bytes → Option Bytes
  | 0 :: b =>
    let masked := b.drop Sha512.size
    let seed := Bytes.xor (b.take Sha512.size) (mask masked Sha512.size)
    let data := Bytes.xor masked (mask seed masked.length)
    if data.take Sha512.size = labelDigest then unpadText? (data.drop Sha512.size) else none
  | _ => none

/-- The ciphertext of a text, if it is not too long for the key. -/
def encrypt? (key : PublicNumbers) (seed text : Bytes) : Option Bytes :=
  if text.length + 2 * Sha512.size + 2 ≤ key.size then
    some (Bytes.ofNat key.size (key.raise (Bytes.toNat (pad key.size seed text))))
  else none

def decrypt? (key : PrivateNumbers) (ciphertext : Bytes) : Option Bytes :=
  let size := key.toPublic.size
  if ciphertext.length = size ∧ 2 * Sha512.size + 2 ≤ size then do
    let m ← key.root? (Bytes.toNat ciphertext)
    unpad? (Bytes.ofNat size m)
  else none

end SealedMail.Rsa.Oaep
