import SealedMail.Bytes.Base64
import SealedMail.Cipher.Gcm
import SealedMail.Entropy
import SealedMail.Error.Cause

/-!
# Symmetric keys

A message and the private data of an account are encrypted under keys of 256 bits. A key used for
one purpose only has a fixed initialisation vector that is never sent; otherwise the vector is
random and stands in front of the ciphertext. Nothing encrypts to nothing, without a tag. A key
read from outside may have any length; the cipher refuses it unless it has 32 bytes.
-/

namespace SealedMail

/-- A key for encryption and decryption. -/
structure SymmetricKey where
  bytes : Bytes
  deriving DecidableEq

namespace SymmetricKey

def size : Nat := 32

/-- Bytes in a random initialisation vector. -/
def randomIvSize : Nat := 16

def contentIv : Bytes := .ofString "content"

def attachmentsIv : Bytes := .ofString "attachments"

/-- The initialisation vector of message states in version 0. -/
def stateIv : Bytes := .ofString "meta"

def toBase64 (key : SymmetricKey) : String := Base64.encode key.bytes

def ofBase64 (text : String) : Except CipherError SymmetricKey :=
  match Base64.decode? text with
  | some bytes => .ok ⟨bytes⟩
  | none => .error .invalidBase64

def bitSize (key : SymmetricKey) : Nat := 8 * key.bytes.length

/-- The key as it may stand in a record of events. -/
def redacted (key : SymmetricKey) : String := s!"SymmetricKey({key.bitSize} bits, redacted)"

def isIvLength (length : Nat) : Bool := [4, 7, 11, 12, 16].contains length

def encrypt (key : SymmetricKey) (iv text : Bytes) : Except CipherError Bytes :=
  if text.isEmpty then .ok []
  else if !isIvLength iv.length then .error (.unsupportedIvLength iv.length)
  else if key.bytes.length ≠ size then .error (.keyLength key.bytes.length)
  else .ok (Gcm.encrypt key.bytes iv text)

/-- The initialisation vector and the ciphertext of a text. -/
def encryptPrepended (key : SymmetricKey) (iv text : Bytes) : Except CipherError Bytes := do
  let ciphertext ← key.encrypt iv text
  -- nothing encrypts to nothing, without a vector in front
  return if text.isEmpty then [] else iv ++ ciphertext

def decrypt (key : SymmetricKey) (iv ciphertext : Bytes) : Except CipherError Bytes :=
  if ciphertext.isEmpty then .ok []
  else if !isIvLength iv.length then .error (.unsupportedIvLength iv.length)
  else if key.bytes.length ≠ size then .error .authentication
  else
    match Gcm.decrypt? key.bytes iv ciphertext with
    | some text => .ok text
    | none => .error .authentication

/-- The text of a ciphertext behind an initialisation vector of the given length. -/
def decryptPrepended (key : SymmetricKey) (ivLength : Nat) (b : Bytes) : Except CipherError Bytes :=
  if b.isEmpty then .ok []
  else if b.length < ivLength then .error (.missingIv ivLength)
  else key.decrypt (b.take ivLength) (b.drop ivLength)

/-- A new key of the given number of bits, as far as they fill bytes. -/
def generate {ε : Type} (bits : Nat) : Random ε SymmetricKey := do
  return ⟨← Random.bytes (bits / 8)⟩

def encryptRandom (key : SymmetricKey) (text : Bytes) : Random CipherError Bytes := do
  let iv ← Random.bytes randomIvSize
  Random.ofExcept (key.encryptPrepended iv text)

end SymmetricKey

end SealedMail
