import SealedMail.Body.Reader
import SealedMail.Compression.Stream
import SealedMail.Incoming.Opening

/-!
# Decoding messages

The body of an opened message as its recipient sees it, with its state. The signature is checked on
request, after the body has told who the sender is. A message that the recipient sent has nothing
left to do, and its state is not opened.
-/

namespace SealedMail

/-- What is kept of a received message. -/
structure MessageRecord where
  id : UInt64
  lastModified : UInt64
  dateReceived : DateTime
  dateSent : DateTime
  sender : Address
  text : String
  footer : String
  key : SymmetricKey
  stateVersion : UInt32
  read : Bool
  done : Bool
  signatureKeyId : UInt32

/-- A message that was read. -/
structure DecodedMessage where
  record : MessageRecord
  sender : Sender
  participants : AddressSet
  attachments : List AttachmentInfo
  delivery : List Delivery

namespace OpenedMessage

/-- The body as the account `own` sees it, after its data was expanded in some way. -/
def bodyWith (message : OpenedMessage) (own : Address) (expand : Bytes → Except MailError Bytes) :
    Except MailError ReceivedBody := do
  ReceivedBody.ofBytes own (← expand message.content.data)

def body (message : OpenedMessage) (own : Address) (mode : Compression) :
    Except MailError ReceivedBody :=
  message.bodyWith own mode.decompress

/-- The state for the account `own` of a message from a sender. -/
def stateFor (message : OpenedMessage) (own sender : Address) : Except MailError MessageState :=
  if sender = own then .ok .selfSent else message.state.decrypt

def record (message : OpenedMessage) (body : ReceivedBody) (state : MessageState) :
    MessageRecord where
  id := message.id
  lastModified := message.lastModified
  dateReceived := message.dateReceived
  dateSent := body.dateSent
  sender := body.sender.address
  text := body.text
  footer := body.footer
  key := message.key
  stateVersion := state.version
  read := state.read
  done := state.done
  signatureKeyId := message.content.keyId

/-- Reads a message for the account `own`, whose data is expanded in some way. -/
def decodeWith (message : OpenedMessage) (own : Address) (expand : Bytes → Except MailError Bytes)
    (verify : Bool) (keys : Directory) : Except MailError DecodedMessage := do
  let body ← message.bodyWith own expand
  -- the key must be one of the sender whom the body itself names
  if verify then message.content.verify body.sender.address keys
  let state ← message.stateFor own body.sender.address
  return ⟨message.record body state, body.sender, body.participants, body.attachments,
    state.delivery⟩

def decode (message : OpenedMessage) (own : Address) (mode : Compression) (verify : Bool)
    (keys : Directory) : Except MailError DecodedMessage :=
  message.decodeWith own mode.decompress verify keys

end OpenedMessage

end SealedMail
