import SealedMail.Error.Message

/-!
# Size limits

How many bytes each part of a message may have. Sizes are checked before any decryption.
-/

namespace SealedMail

/-- The greatest sizes accepted, in bytes. -/
structure Limits where
  keySafe : Nat := 1024
  content : Nat := 64 * 1024
  metadata : Nat := 1024
  attachments : Nat := 100 * 1024 * 1024
  deriving DecidableEq, Repr

namespace Limits

def ofPart (limits : Limits) : Part → Nat
  | .keySafe => limits.keySafe
  | .content => limits.content
  | .metadata => limits.metadata

def check (limits : Limits) (part : Part) (size : Nat) : Except MailError Unit :=
  if size ≤ limits.ofPart part then .ok () else .error (.invalid (.tooLarge part size))

def checkAttachments (limits : Limits) (size : Nat) : Except MailError Unit :=
  if size ≤ limits.attachments then .ok () else .error (.invalid .attachmentsTooLarge)

end Limits

end SealedMail
