/-!
# Causes of failure

What can go wrong in one conversion, one cryptographic operation, one request to a store, or in
data handed over by a collaborator. Each kind of failure is a constructor, with the values that its
wording shows; the wording is one function for each type.
-/

namespace SealedMail

/-- What a key pair is for. -/
inductive KeyPurpose where
  | encryption
  | signature
  deriving DecidableEq, Repr

def KeyPurpose.name : KeyPurpose → String
  | .encryption => "encryption"
  | .signature => "signature"

/-- What a field was expected to hold. -/
inductive FieldType where
  | bool
  | unsigned
  | string
  deriving DecidableEq, Repr

def FieldType.name : FieldType → String
  | .bool => "bool"
  | .unsigned => "unsigned integer"
  | .string => "string"

/-- A closed list of words that a field may hold. -/
inductive Vocabulary where
  | deliveryState
  | deliveryReason
  deriving DecidableEq, Repr

def Vocabulary.name : Vocabulary → String
  | .deliveryState => "delivery state"
  | .deliveryReason => "delivery reason"

/-- Why the value of a field cannot be used. -/
inductive FieldError where
  | wrongType (expected : FieldType)
  | emptyString
  | outOfRange
  | invalidHex
  | invalidBase64
  | invalidDate (text : String)
  | invalidAddress (text : String)
  | unknownWord (vocabulary : Vocabulary) (word : String)
  deriving DecidableEq, Repr

def FieldError.message : FieldError → String
  | .wrongType expected => s!"expected {expected.name}"
  | .emptyString => "couldn't convert value to non-empty string"
  | .outOfRange => "value out of range for u32"
  | .invalidHex => "not a valid hex string"
  | .invalidBase64 => "couldn't decode value from base64"
  | .invalidDate text => s!"not a valid date/time: {text}"
  | .invalidAddress text => s!"not a valid address: {text}"
  | .unknownWord vocabulary word => s!"invalid {vocabulary.name}: {word}"

/-- Why a cryptographic operation failed. -/
inductive CipherError where
  /-- No key of the requested size could be made. -/
  | keyGeneration
  /-- The bytes are not the encoding of a usable key. -/
  | malformedKey
  /-- A symmetric key of the wrong length, in bytes. -/
  | keyLength (length : Nat)
  | wrongPurpose (expected actual : KeyPurpose)
  /-- The text is too long for the public key. -/
  | asymmetricEncrypt
  | asymmetricDecrypt
  /-- The private key is too small to sign with. -/
  | signing
  /-- The tag does not authenticate the ciphertext. -/
  | authentication
  | unsupportedIvLength (length : Nat)
  /-- The ciphertext is shorter than the initialisation vector in front of it. -/
  | missingIv (length : Nat)
  | invalidBase64
  deriving DecidableEq, Repr

def CipherError.message : CipherError → String
  | .keyGeneration => "Key generation failed"
  | .malformedKey => "Invalid key material"
  | .keyLength length => s!"Invalid key material: AES-256 key must be 32 bytes, got {length}"
  | .wrongPurpose expected actual =>
    s!"Wrong key type: expected {expected.name} key, got {actual.name} key"
  | .asymmetricEncrypt => "Asymmetric encryption failed"
  | .asymmetricDecrypt => "Asymmetric decryption failed"
  | .signing => "Signing failed"
  | .authentication =>
    "AEAD decryption failed (authentication tag mismatch, possible tampering)"
  | .unsupportedIvLength length => s!"Unsupported IV length: {length} bytes"
  | .missingIv length => s!"Ciphertext is shorter than its {length} byte IV"
  | .invalidBase64 => "Base64 decode error"

/-- An inconsistency in data handed over by a collaborator. -/
inductive Inconsistency where
  | missingConversation (id : UInt64)
  | missingMessage (id : UInt64)
  | missingSender (id : UInt64)
  | sizeMismatch (index declared : UInt32) (actual : Nat)
  | streamTooLong
  | streamTooShort
  | hashMismatch (index : UInt32)
  deriving DecidableEq, Repr

def Inconsistency.message : Inconsistency → String
  | .missingConversation id => s!"couldn't find conversation {id} for draft"
  | .missingMessage id => s!"couldn't find message {id}"
  | .missingSender id => s!"couldn't find sender for message {id}"
  | .sizeMismatch index declared actual =>
    s!"attachment sizes don't match: index {index} declares {declared} bytes, has {actual}"
  | .streamTooLong => "attachment stream is too long"
  | .streamTooShort => "attachment stream is too short"
  | .hashMismatch index => s!"hash mismatch for attachment {index}"

/-- A record that a store may lack. -/
inductive RecordName where
  | conversation (id : UInt64)
  | draft (conversation : UInt64)
  | receivedMessage (id : UInt64)
  | privateKey (purpose : KeyPurpose) (id : UInt32)
  deriving DecidableEq, Repr

def RecordName.description : RecordName → String
  | .conversation id => s!"conversation {id}"
  | .draft id => s!"draft of conversation {id}"
  | .receivedMessage id => s!"received message {id}"
  | .privateKey purpose id => s!"{purpose.name} key {id}"

/-- Why a store refused a request. -/
inductive StoreError where
  | notFound (record : RecordName)
  | keyConflict (purpose : KeyPurpose) (id : UInt32)
  /-- The length of the payload, in bytes, does not fit into the index. -/
  | attachmentTooLarge (length : Nat)
  deriving DecidableEq, Repr

def StoreError.message : StoreError → String
  | .notFound record => s!"Record not found: {record.description}"
  | .keyConflict purpose id => s!"{purpose.name} key {id} is already registered"
  | .attachmentTooLarge length => s!"Attachment of {length} bytes exceeds the 4 GiB index limit"

/-- Why a source of private keys did not give one. -/
inductive LookupError where
  | store (error : StoreError)
  | other (reason : String)
  deriving DecidableEq, Repr

def LookupError.message : LookupError → String
  | .store error => error.message
  | .other reason => reason

end SealedMail
