import SealedMail.Field
import SealedMail.Json.Printer
import SealedMail.Json.Reader
import SealedMail.KeyRing
import SealedMail.SymmetricKey

/-!
# Key safes

The symmetric key of a message, encrypted for its recipient: four bytes that number the recipient's
key pair, and behind them the encrypted JSON object that holds the key and names what it is used
with. There is one format, one cipher and one hash function; a key safe that names others is
refused.
-/

namespace SealedMail.KeySafe

def format : UInt32 := 1

/-- The cipher that content and attachments are encrypted with. -/
def cipher : String := "AES-256/GCM"

/-- The hash function that identifies attachments. -/
def hash : String := "SHA-512"

def toJson (key : SymmetricKey) : Json :=
  .ofFields [
    ("msgFormat", .integer format.toNat),
    ("symmCipher", .string cipher),
    ("symmKey", .string key.toBase64),
    ("hashAlgo", .string hash)]

/-- The key safe that holds a key for a recipient, with a given seed. -/
def encrypt (keyId : UInt32) (recipient : PublicKey) (seed : Bytes) (key : SymmetricKey) :
    Except CipherError Bytes := do
  return Bytes.ofUInt32 keyId ++ (← recipient.encrypt seed (toJson key).toBytes)

/-- A key safe with a new key, and this key. -/
def generate (keyId : UInt32) (recipient : PublicKey) :
    Random CipherError (Bytes × SymmetricKey) := do
  let key ← SymmetricKey.generate (8 * SymmetricKey.size)
  let seed ← Random.bytes Sha512.size
  return (← Random.ofExcept (encrypt keyId recipient seed key), key)

def fault {α : Type} (fault : KeySafeFault) : Except MailError α :=
  .error (.invalid (.keySafe fault))

def ofJson (json : Json) : Except MailError SymmetricKey := do
  if !json.isObject then fault .notObject
  let version ← Field.named "keySafe msgFormat" (Field.unsigned (json.field "msgFormat"))
  if version ≠ format then throw (.unsupportedVersion version)
  let name ← Field.named "keySafe symmCipher" (Field.string false (json.field "symmCipher"))
  if name ≠ cipher then fault .badCipher
  let name ← Field.named "keySafe hashAlgo" (Field.string false (json.field "hashAlgo"))
  if name ≠ hash then fault .badHash
  let bytes ← Field.named "keySafe symmKey" (Field.base64 false (json.field "symmKey"))
  if bytes.length ≠ SymmetricKey.size then fault .badKey
  return ⟨bytes⟩

def ofCiphertext (privateKey : PrivateKey) (ciphertext : Bytes) : Except MailError SymmetricKey :=
  match privateKey.decrypt ciphertext with
  | .error cause => fault (.undecryptable cause)
  | .ok plain =>
    match Json.ofBytes? plain with
    | none => fault .notJson
    | some json => ofJson json

/-- The key in a key safe. The number of the key pair and at least one byte must be there. -/
def decrypt {σ : Type} (keys : KeyRing σ) (b : Bytes) : MailM σ SymmetricKey := do
  match Bytes.readUInt32? b with
  | none | some (_, []) => throw (.invalid (.keySafe .tooShort))
  | some (keyId, ciphertext) =>
    match ← (keys .encryption keyId : StateM σ _) with
    | .error cause => throw (.decryptionKeyMissing keyId cause)
    | .ok privateKey => MailM.ofExcept (ofCiphertext privateKey ciphertext)

end SealedMail.KeySafe
