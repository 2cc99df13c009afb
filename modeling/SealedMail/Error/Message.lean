import SealedMail.Address.Basic
import SealedMail.Error.Cause

/-!
# Failures of a message

What can be wrong with a message: a fault in its bytes, a key that is missing, a signature that
does not hold, or an inconsistency that its bytes are not to blame for. A message whose own bytes
are bad is put aside and others go on, so `isBadMessage` tells the two apart.
-/

namespace SealedMail

/-- A part of a message with a size limit of its own. -/
inductive Part where
  | keySafe
  | content
  | metadata
  deriving DecidableEq, Repr

def Part.name : Part → String
  | .keySafe => "keySafe"
  | .content => "content"
  | .metadata => "meta"

/-- What is wrong with a key safe. -/
inductive KeySafeFault where
  | tooShort
  | undecryptable (cause : CipherError)
  | notJson
  | notObject
  | badCipher
  | badHash
  | badKey
  deriving DecidableEq, Repr

/-- What is wrong with the envelope of a body. -/
inductive ContentFault where
  | undecryptable (cause : CipherError)
  | shortHeader
  | shortSignature
  /-- The length of the signature does not fit into its field. -/
  | longSignature
  deriving DecidableEq, Repr

/-- What is wrong with a body. -/
inductive BodyFault where
  | notJson
  | notObject
  | senderNotObject
  | avatarFields
  | avatarType
  | recipientsNotArray
  | recipientsEmpty
  | recipientsContainSender
  | attachmentsNotArray
  /-- There are more attachments than positions. -/
  | tooManyAttachments
  deriving DecidableEq, Repr

/-- What is wrong with a meta envelope. -/
inductive MetaFault where
  | undecryptable (cause : CipherError)
  | notText
  | notJson
  | notObject
  deriving DecidableEq, Repr

/-- What is wrong with a delivery object. -/
inductive DeliveryFault where
  | notObject
  | recordNotObject
  | badRecord (cause : FieldError)
  deriving DecidableEq, Repr

/-- What is wrong with the bytes of a message. -/
inductive Fault where
  | tooLarge (part : Part) (size : Nat)
  | attachmentsTooLarge
  | gzip
  | attachmentsUndecryptable (cause : CipherError)
  | keySafe (fault : KeySafeFault)
  | content (fault : ContentFault)
  | body (fault : BodyFault)
  | metadata (version : UInt32) (fault : MetaFault)
  | delivery (fault : DeliveryFault)
  | field (name : String) (cause : FieldError)
  /-- A collaborator refused to go on. -/
  | refused (reason : String)
  deriving DecidableEq, Repr

def KeySafeFault.message : KeySafeFault → String
  | .tooShort => "keySafe too short"
  | .undecryptable _ => "keySafe decryption failed"
  | .notJson => "keySafe invalid"
  | .notObject => "keySafe is not an object"
  | .badCipher => "keySafe: bad symmCipher"
  | .badHash => "keySafe: bad hashAlgo"
  | .badKey => "keySafe: bad symmKey"

def ContentFault.message : ContentFault → String
  | .undecryptable _ => "content decryption failed"
  | .shortHeader => "decrypted data too short"
  | .shortSignature => "decrypted data too short [2]"
  | .longSignature => "signature too long"

def BodyFault.message : BodyFault → String
  | .notJson => "content invalid"
  | .notObject => "content is not an object"
  | .senderNotObject => "sender is not an object"
  | .avatarFields => "sender.avatar must be empty or consist of mimeType and data"
  | .avatarType => "sender.avatar must be null or an object"
  | .recipientsNotArray => "recipients is not an array"
  | .recipientsEmpty => "recipients are empty"
  | .recipientsContainSender => "recipients contain the sender"
  | .attachmentsNotArray => "attachmentsIndex is not an array"
  | .tooManyAttachments => "too many attachments"

def MetaFault.message (version : UInt32) : MetaFault → String
  | .undecryptable _ => s!"meta (version {version}) decryption failed"
  | .notText | .notJson => s!"meta (version {version}) invalid"
  | .notObject => s!"meta (version {version}) is not an object"

def DeliveryFault.message : DeliveryFault → String
  | .notObject => "delivery is not an object"
  | .recordNotObject => "stateRecord is not an object"
  | .badRecord _ => "failed to parse stateRecord"

def Fault.message : Fault → String
  | .tooLarge part size => s!"{part.name} too large: {size}"
  | .attachmentsTooLarge => "attachments are too large"
  | .gzip => "gzip data invalid"
  | .attachmentsUndecryptable _ => "attachments decryption failed"
  | .keySafe fault => fault.message
  | .content fault => fault.message
  | .body fault => fault.message
  | .metadata version fault => fault.message version
  | .delivery fault => fault.message
  | .field name _ => s!"{name} invalid"
  | .refused reason => reason

/-- What a fault or failure goes back to. -/
inductive Cause where
  | conversion (error : FieldError)
  | crypto (error : CipherError)
  | integrity (error : Inconsistency)
  | lookup (error : LookupError)
  | json
  | gzip
  | utf8
  deriving DecidableEq, Repr

def Fault.cause? : Fault → Option Cause
  | .gzip => some .gzip
  | .attachmentsUndecryptable cause => some (.crypto cause)
  | .keySafe (.undecryptable cause) => some (.crypto cause)
  | .keySafe .notJson => some .json
  | .content (.undecryptable cause) => some (.crypto cause)
  | .body .notJson => some .json
  | .metadata _ (.undecryptable cause) => some (.crypto cause)
  | .metadata _ .notText => some .utf8
  | .metadata _ .notJson => some .json
  | .delivery (.badRecord cause) => some (.conversion cause)
  | .field _ cause => some (.conversion cause)
  | _ => none

/-- Why a message cannot be written or read. -/
inductive MailError where
  | invalid (fault : Fault)
  | decryptionKeyMissing (keyId : UInt32) (cause : LookupError)
  | verificationKeyMissing (address : Address) (keyId : UInt32)
  | verificationFailed
  | unsupportedVersion (version : UInt32)
  | integrity (error : Inconsistency)
  | crypto (error : CipherError)
  deriving DecidableEq

namespace MailError

def message : MailError → String
  | .invalid fault => s!"Invalid content format: {fault.message}"
  | .decryptionKeyMissing keyId _ => s!"Decryption key {keyId} is missing"
  | .verificationKeyMissing address keyId =>
    s!"Signature verification key {keyId} of {address.text} is missing"
  | .verificationFailed => "Signature verification failed"
  | .unsupportedVersion version => s!"Unsupported content version: {version}"
  | .integrity error => s!"Integrity error: {error.message}"
  | .crypto error => s!"Crypto error: {error.message}"

/-- What a failure goes back to. -/
def cause? : MailError → Option Cause
  | .invalid fault => fault.cause?
  | .decryptionKeyMissing _ cause => some (.lookup cause)
  | .integrity error => some (.integrity error)
  | .crypto error => some (.crypto error)
  | _ => none

/-- The received bytes are to blame, and not a collaborator. -/
def isBadMessage : MailError → Bool
  | .integrity _ | .crypto _ => false
  | _ => true

end MailError

end SealedMail
