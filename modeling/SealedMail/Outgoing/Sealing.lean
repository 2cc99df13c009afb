import SealedMail.KeySafe
import SealedMail.Limits
import SealedMail.Outgoing.Encoding
import SealedMail.SignedContent

/-!
# Sealing messages

An encoded message is encrypted under a new key, which goes into a key safe for the recipient. The
content is signed before; without attachments there is nothing to encrypt for them.
-/

namespace SealedMail

/-- A message as it is sent. -/
structure SealedMessage where
  keySafe : Bytes
  content : Bytes
  attachments : Bytes
  deriving DecidableEq

/-- A key with the number that its owner gave it. -/
structure Numbered (α : Type) where
  id : UInt32
  key : α

namespace EncodedMessage

/-- The attachments under the key of the message, within the limit. -/
def encryptAttachments (message : EncodedMessage) (limits : Limits) (key : SymmetricKey) :
    Except MailError Bytes := do
  let sealed ←
    if message.attachments.isEmpty then pure []
    else Attachments.encrypt key message.attachments
  limits.checkAttachments sealed.length
  return sealed

/-- The message sealed for the owner of one key and signed with another one. -/
def sealFor (message : EncodedMessage) (limits : Limits) (recipient : Numbered PublicKey)
    (signer : Numbered PrivateKey) : Random MailError SealedMessage := do
  let (keySafe, key) ← Random.mapError .crypto (KeySafe.generate recipient.id recipient.key)
  let content ← SignedContent.signAndEncrypt signer.id signer.key message.content key
  let attachments ← Random.ofExcept (message.encryptAttachments limits key)
  return ⟨keySafe, content, attachments⟩

end EncodedMessage

end SealedMail
