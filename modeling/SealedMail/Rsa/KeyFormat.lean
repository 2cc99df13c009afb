import SealedMail.Rsa.Der
import SealedMail.Rsa.Numbers

/-!
# Encodings of keys

A public key as a subject's key information, and a private key as private key information. Both
name the algorithm in one way. A public key is read only up to a certain size, which does not bind
the public half of a private key. A private key may carry attributes, the public key and further
tagged elements, none of which counts; the numbers in it that follow from others are computed anew
when it is written.
-/

namespace SealedMail.Rsa

/-- The identifier of the algorithm and its empty parameters. -/
def algorithmContents : Bytes :=
  [0x06, 0x09, 0x2a, 0x86, 0x48, 0x86, 0xf7, 0x0d, 0x01, 0x01, 0x01, 0x05, 0x00]

def algorithm : Bytes := Der.element Der.sequenceTag algorithmContents

def skipAlgorithm? (b : Bytes) : Option Bytes := do
  let (contents, rest) ← Der.take? Der.sequenceTag b
  if contents = algorithmContents then some rest else none

/-- The bytes of a bit string without unused bits. -/
def wholeBits? : Bytes → Option Bytes
  | 0 :: bytes => some bytes
  | _ => none

namespace PublicNumbers

def toDer (key : PublicNumbers) : Bytes :=
  let numbers := Der.element Der.sequenceTag (Der.natural key.modulus ++ Der.natural key.exponent)
  Der.element Der.sequenceTag (algorithm ++ Der.element Der.bitStringTag (0 :: numbers))

/-- The greatest number of bits in the modulus of a public key that is read. -/
def maxBits : Nat := 4096

def ofDer? (b : Bytes) : Option PublicNumbers := do
  let contents ← Der.only? Der.sequenceTag b
  let rest ← skipAlgorithm? contents
  let bits ← Der.only? Der.bitStringTag rest
  let numbers ← Der.only? Der.sequenceTag (← wholeBits? bits)
  match ← Der.naturals? 2 numbers with
  | [modulus, exponent] => if modulus < 1 <<< maxBits then ofNumbers? modulus exponent else none
  | _ => none

end PublicNumbers

/-- The elements after a private key up to a public key: attributes are skipped. Tells whether
there is a public key, and what follows. -/
def takePublicHalf? : Nat → Bytes → Option (Bool × Bytes)
  | 0, b => some (false, b)
  | fuel + 1, b =>
    match b with
    -- attributes
    | 0x80 :: _ | 0xa0 :: _ => do
      let (_, _, rest) ← Der.read? b
      takePublicHalf? fuel rest
    -- the public key, of which the bits are not looked at
    | 0x81 :: _ | 0xa1 :: _ => do
      let (contents, rest) ← Der.take? 0x81 b
      let _ ← wholeBits? contents
      return (true, rest)
    | _ => some (false, b)

/-- The bytes are tagged elements that hold one element each. -/
def areTagged : Nat → Bytes → Bool
  | _, [] => true
  | 0, _ => false
  | fuel + 1, b =>
    match Der.read? b with
    | some (tag, contents, rest) =>
      0xa0 ≤ tag && tag < 0xc0 && ((Der.read? contents).any fun inner => inner.2.2.isEmpty) &&
        areTagged fuel rest
    | none => false

namespace PrivateNumbers

/-- The private key as bytes. The coefficient is part of it, so the factors must not have a common
divisor. -/
def toDer? (key : PrivateNumbers) : Option Bytes := do
  let coefficient ← key.coefficient?
  let numbers := [0, key.p * key.q, key.exponent, key.secret, key.p, key.q,
    key.secret % (key.p - 1), key.secret % (key.q - 1), coefficient]
  let inner := Der.element Der.sequenceTag (numbers.flatMap Der.natural)
  return Der.element Der.sequenceTag
    (Der.natural 0 ++ (algorithm ++ Der.element Der.octetStringTag inner))

/-- The private key in the innermost encoding. -/
def ofInner? (b : Bytes) : Option PrivateNumbers := do
  match ← Der.naturals? 9 (← Der.only? Der.sequenceTag b) with
  | [0, modulus, exponent, secret, p, q, _, _, _] => ofNumbers? modulus exponent secret p q
  | _ => none

/-- The private key that bytes encode. The version tells whether a public key is part of it. -/
def ofDer? (b : Bytes) : Option PrivateNumbers := do
  let contents ← Der.only? Der.sequenceTag b
  let (version, rest) ← Der.take? Der.integerTag contents
  let version ← Der.natural? version
  let rest ← skipAlgorithm? rest
  let (inner, rest) ← Der.take? Der.octetStringTag rest
  let (hasPublic, rest) ← takePublicHalf? rest.length rest
  if version = hasPublic.toNat ∧ areTagged rest.length rest then ofInner? inner else none

end PrivateNumbers

end SealedMail.Rsa
