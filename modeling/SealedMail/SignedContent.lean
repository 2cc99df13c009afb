import SealedMail.KeyRing
import SealedMail.SymmetricKey

/-!
# Signed content

A body is signed and encrypted together with its signature: the number of the sender's signature
key, the length of the signature, the signature, and the body. The signature is over the body as it
is sent, which may be compressed.
-/

namespace SealedMail

/-- A body with the signature of its sender. -/
structure SignedContent where
  keyId : UInt32
  signature : Bytes
  data : Bytes
  deriving DecidableEq

namespace SignedContent

def toBytes (content : SignedContent) : Bytes :=
  Bytes.ofUInt32 content.keyId ++ (Bytes.ofUInt32 (UInt32.ofNat content.signature.length) ++
    (content.signature ++ content.data))

/-- The parts that stand one after the other. -/
def ofBytes (b : Bytes) : Except ContentFault SignedContent :=
  match Bytes.readUInt32? b with
  | none => .error .shortHeader
  | some (keyId, b) =>
    match Bytes.readUInt32? b with
    | none => .error .shortHeader
    | some (length, b) =>
      if b.length < length.toNat then .error .shortSignature
      else .ok ⟨keyId, b.take length.toNat, b.drop length.toNat⟩

/-- A body with its signature under the given key and salt, if the length of the signature fits
into its field. -/
def sign (keyId : UInt32) (signingKey : PrivateKey) (salt data : Bytes) :
    Except MailError SignedContent := do
  let signature ← (signingKey.sign salt data).mapError .crypto
  if signature.length < UInt32.size then return ⟨keyId, signature, data⟩
  else throw (.invalid (.content .longSignature))

def encrypt (content : SignedContent) (key : SymmetricKey) : Except CipherError Bytes :=
  key.encrypt SymmetricKey.contentIv content.toBytes

/-- The envelope of a body that is signed with a random salt. -/
def signAndEncrypt (keyId : UInt32) (signingKey : PrivateKey) (data : Bytes) (key : SymmetricKey) :
    Random MailError Bytes := do
  let salt ← Random.bytes Rsa.Pss.saltSize
  Random.ofExcept do
    let content ← sign keyId signingKey salt data
    (content.encrypt key).mapError .crypto

def decrypt (key : SymmetricKey) (ciphertext : Bytes) : Except MailError SignedContent :=
  match key.decrypt SymmetricKey.contentIv ciphertext with
  | .error cause => .error (.invalid (.content (.undecryptable cause)))
  | .ok plain =>
    match ofBytes plain with
    | .error fault => .error (.invalid (.content fault))
    | .ok content => .ok content

/-- Accepts content that its sender signed. -/
def verify (content : SignedContent) (sender : Address) (keys : Directory) :
    Except MailError Unit :=
  match keys sender .signature content.keyId with
  | none => .error (.verificationKeyMissing sender content.keyId)
  | some key =>
    match key.verify content.data content.signature with
    | .error e => .error (.crypto e)
    | .ok true => .ok ()
    | .ok false => .error .verificationFailed

end SignedContent

end SealedMail
