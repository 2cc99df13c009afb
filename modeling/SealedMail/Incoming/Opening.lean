import SealedMail.KeySafe
import SealedMail.Limits
import SealedMail.Meta.Envelope
import SealedMail.SignedContent

/-!
# Opening messages

A message as it was received: its key safe and its content are opened, its state is left sealed
until the sender is known. Sizes are checked first.
-/

namespace SealedMail

/-- A message as it was received. -/
structure WireMessage where
  id : UInt64
  lastModified : UInt64
  dateReceived : DateTime
  keySafe : Bytes
  content : Bytes
  metadata : Bytes

/-- A message of which the key safe and the content are opened. -/
structure OpenedMessage where
  id : UInt64
  lastModified : UInt64
  dateReceived : DateTime
  key : SymmetricKey
  content : SignedContent
  state : SealedState

namespace WireMessage

def checkSize (message : WireMessage) (limits : Limits) : Except MailError Unit := do
  limits.check .keySafe message.keySafe.length
  limits.check .content message.content.length
  limits.check .metadata message.metadata.length

/-- Opens a message with a key of the ring. The private data key is for the state. -/
def decrypt {σ : Type} (message : WireMessage) (limits : Limits) (keys : KeyRing σ)
    (privateDataKey : SymmetricKey) : MailM σ OpenedMessage := do
  MailM.ofExcept (message.checkSize limits)
  let key ← KeySafe.decrypt keys message.keySafe
  let content ← MailM.ofExcept (SignedContent.decrypt key message.content)
  return ⟨message.id, message.lastModified, message.dateReceived, key, content,
    ⟨message.metadata, privateDataKey⟩⟩

end WireMessage

end SealedMail
