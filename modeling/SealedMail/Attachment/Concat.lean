import SealedMail.Error.Message
import SealedMail.Message
import SealedMail.SymmetricKey

/-!
# Attachments as one stream

The payloads of a message go one after the other into one stream, in the order of the index. They
are encrypted together; without payloads there is nothing to encrypt.
-/

namespace SealedMail

/-- Refuses an attachment whose payload does not have the length that its entry declares. -/
def Attachment.checkSize (attachment : Attachment) : Except MailError Unit :=
  if attachment.info.size.toNat = attachment.content.length then .ok ()
  else
    .error (.integrity
      (.sizeMismatch attachment.info.index attachment.info.size attachment.content.length))

namespace Attachments

/-- The index and the stream of the given attachments. -/
def concat : List Attachment → Except MailError (List AttachmentInfo × Bytes)
  | [] => .ok ([], [])
  | attachment :: rest => do
    attachment.checkSize
    let (index, stream) ← concat rest
    return (attachment.info :: index, attachment.content ++ stream)

def encrypt (key : SymmetricKey) (stream : Bytes) : Except MailError Bytes :=
  (key.encrypt SymmetricKey.attachmentsIv stream).mapError .crypto

def decrypt (key : SymmetricKey) (ciphertext : Bytes) : Except MailError Bytes :=
  match key.decrypt SymmetricKey.attachmentsIv ciphertext with
  | .ok stream => .ok stream
  | .error cause => .error (.invalid (.attachmentsUndecryptable cause))

end Attachments

end SealedMail
