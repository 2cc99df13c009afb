import SealedMail.Limits
import SealedMail.Meta.State
import SealedMail.SymmetricKey

/-!
# The envelope of a message state

Four bytes of a version, and the text of a state encrypted under the private data key of the
account: with a fixed initialisation vector in version 0, with a random one in version 1. What
follows a later version is left alone. Fewer than four bytes stand for an empty text in the latest
version. Only the latest version is written.
-/

namespace SealedMail

/-- A state as received, with the key that opens it. -/
structure SealedState where
  bytes : Bytes
  key : SymmetricKey

namespace SealedState

/-- The version that the envelope names; nothing is decrypted for it. -/
def version (state : SealedState) : UInt32 :=
  match Bytes.readUInt32? state.bytes with
  | some (version, _) => version
  | none => MessageState.latestVersion

/-- The text behind a version. -/
def decryptBody (key : SymmetricKey) (version : UInt32) (b : Bytes) : Except CipherError Bytes :=
  if version = 0 then key.decrypt SymmetricKey.stateIv b
  else key.decryptPrepended SymmetricKey.randomIvSize b

def text (state : SealedState) : Except MailError (UInt32 × String) :=
  match Bytes.readUInt32? state.bytes with
  | none => .ok (MessageState.latestVersion, "")
  | some (version, body) =>
    if version ≤ MessageState.latestVersion then
      match decryptBody state.key version body with
      | .error cause => .error (.invalid (.metadata version (.undecryptable cause)))
      | .ok plain =>
        match Bytes.toString? plain with
        | none => .error (.invalid (.metadata version .notText))
        | some text => .ok (version, text)
    else .ok (version, "")

def decrypt (state : SealedState) : Except MailError MessageState := do
  let (version, text) ← state.text
  MessageState.ofText version text

/-- An envelope in the latest version with the given initialisation vector. -/
def encrypt (iv text : Bytes) (key : SymmetricKey) : Except MailError Bytes := do
  let body ← (key.encryptPrepended iv text).mapError .crypto
  let sealed := Bytes.ofUInt32 MessageState.latestVersion ++ body
  let limits : Limits := {}
  limits.check .metadata sealed.length
  return sealed

def encryptRandom (text : Bytes) (key : SymmetricKey) : Random MailError Bytes := do
  let iv ← Random.bytes SymmetricKey.randomIvSize
  Random.ofExcept (encrypt iv text key)

end SealedState

end SealedMail
