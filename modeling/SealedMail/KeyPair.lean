import SealedMail.Error.Cause
import SealedMail.Rsa.Generation
import SealedMail.Rsa.KeyFormat
import SealedMail.Rsa.Oaep
import SealedMail.Rsa.Pss

/-!
# Key pairs

An account has key pairs for encryption and others for signatures. A key knows what it is for, and
every use of it asks for that first, so a key of one kind never serves as one of the other.
-/

namespace SealedMail

/-- The public half of a key pair. -/
structure PublicKey where
  purpose : KeyPurpose
  numbers : Rsa.PublicNumbers
  deriving DecidableEq

/-- The private half of a key pair. -/
structure PrivateKey where
  purpose : KeyPurpose
  numbers : Rsa.PrivateNumbers
  deriving DecidableEq

/-- Refuses a key that is not for the purpose at hand. -/
def KeyPurpose.require (expected actual : KeyPurpose) : Except CipherError Unit :=
  if expected = actual then .ok () else .error (.wrongPurpose expected actual)

/-- The result of an operation, or its failure. -/
def orFail {α : Type} (error : CipherError) : Option α → Except CipherError α
  | some a => .ok a
  | none => .error error

namespace PublicKey

def ofDer (purpose : KeyPurpose) (b : Bytes) : Except CipherError PublicKey :=
  (orFail .malformedKey (Rsa.PublicNumbers.ofDer? b)).map (⟨purpose, ·⟩)

def toDer (key : PublicKey) : Bytes := key.numbers.toDer

def encrypt (key : PublicKey) (seed text : Bytes) : Except CipherError Bytes := do
  KeyPurpose.encryption.require key.purpose
  orFail .asymmetricEncrypt (Rsa.Oaep.encrypt? key.numbers seed text)

def encryptRandom (key : PublicKey) (text : Bytes) : Random CipherError Bytes := do
  let seed ← Random.bytes Sha512.size
  Random.ofExcept (key.encrypt seed text)

def verify (key : PublicKey) (text signature : Bytes) : Except CipherError Bool := do
  KeyPurpose.signature.require key.purpose
  return Rsa.Pss.verify key.numbers text signature

end PublicKey

namespace PrivateKey

def generate (purpose : KeyPurpose) (bits : Nat) : Random CipherError PrivateKey := do
  let numbers ← Rsa.generate bits
  Random.ofExcept ((orFail .keyGeneration numbers).map (⟨purpose, ·⟩))

def ofDer (purpose : KeyPurpose) (b : Bytes) : Except CipherError PrivateKey :=
  (orFail .malformedKey (Rsa.PrivateNumbers.ofDer? b)).map (⟨purpose, ·⟩)

def toDer (key : PrivateKey) : Except CipherError Bytes :=
  orFail .malformedKey key.numbers.toDer?

def toPublic (key : PrivateKey) : PublicKey := ⟨key.purpose, key.numbers.toPublic⟩

/-- The key as it may stand in a record of events. -/
def redacted (key : PrivateKey) : String := s!"PrivateKey({key.purpose.name}, redacted)"

def decrypt (key : PrivateKey) (ciphertext : Bytes) : Except CipherError Bytes := do
  KeyPurpose.encryption.require key.purpose
  orFail .asymmetricDecrypt (Rsa.Oaep.decrypt? key.numbers ciphertext)

def sign (key : PrivateKey) (salt text : Bytes) : Except CipherError Bytes := do
  KeyPurpose.signature.require key.purpose
  orFail .signing (Rsa.Pss.sign? key.numbers salt text)

def signRandom (key : PrivateKey) (text : Bytes) : Random CipherError Bytes := do
  let salt ← Random.bytes Rsa.Pss.saltSize
  Random.ofExcept (key.sign salt text)

end PrivateKey

end SealedMail
