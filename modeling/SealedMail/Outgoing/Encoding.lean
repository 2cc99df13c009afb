import SealedMail.Attachment.Concat
import SealedMail.Body.Basic
import SealedMail.Compression.Stream

/-!
# Encoding messages

A draft, or a message that is kept, becomes a body and a stream of attachments. What is needed for
it comes from an archive. The recipients are those who take part in the conversation.
-/

namespace SealedMail

/-- What can be looked up when a message is encoded. -/
structure Archive where
  conversation : UInt64 → Option Conversation
  draftAttachments : UInt64 → List Attachment
  message : UInt64 → Option StoredMessage
  sender : UInt64 → Option Sender
  attachments : UInt64 → List Attachment

/-- A message as a body and the stream of its attachments. -/
structure EncodedMessage where
  content : Bytes
  attachments : Bytes
  deriving DecidableEq

namespace EncodedMessage

/-- The message as a compressor packs it, which may fail. Without attachments there is nothing to
pack. -/
def packWith (pack : Bytes → Except MailError Bytes) (message : EncodedMessage) :
    Except MailError EncodedMessage := do
  let content ← pack message.content
  let attachments ←
    if message.attachments.isEmpty then pure message.attachments else pack message.attachments
  return ⟨content, attachments⟩

/-- The message in a compression mode. Without attachments there is nothing to compress. -/
def compress (mode : Compression) (message : EncodedMessage) : EncodedMessage where
  content := mode.compress message.content
  attachments :=
    if message.attachments.isEmpty then message.attachments else mode.compress message.attachments

end EncodedMessage

namespace Archive

/-- The archive of what is listed: conversations, attachments of drafts by conversation, and
messages with their senders and attachments. -/
def ofLists (conversations : List Conversation) (drafts : List (UInt64 × List Attachment))
    (messages : List (StoredMessage × Option Sender × List Attachment)) : Archive :=
  let find (id : UInt64) := messages.find? fun (message, _, _) => message.id = id
  { conversation := fun id => conversations.find? fun conversation => conversation.id = id
    draftAttachments := fun id => (drafts.lookup id).getD []
    message := fun id => (find id).map fun (message, _, _) => message
    sender := fun id => (find id).bind fun (_, sender, _) => sender
    attachments := fun id => ((find id).map fun (_, _, attachments) => attachments).getD [] }

def orMissing {α : Type} (error : Inconsistency) : Option α → Except MailError α
  | some a => .ok a
  | none => .error (.integrity error)

def encode (archive : Archive) (conversationId : UInt64) (sender : Sender) (dateSent : DateTime)
    (text footer : String) (attachments : List Attachment) : Except MailError EncodedMessage := do
  let conversation ←
    orMissing (.missingConversation conversationId) (archive.conversation conversationId)
  let (index, stream) ← Attachments.concat attachments
  let body : Body := ⟨sender, conversation.participants, dateSent, text, footer, index⟩
  return ⟨body.toBytes, stream⟩

def draftSender (address : Address) (draft : Draft) : Sender :=
  ⟨address, draft.senderName, draft.senderOrganization, draft.senderAvatar⟩

/-- A draft as it is sent from an address at a date. -/
def encodeDraft (archive : Archive) (address : Address) (draft : Draft) (dateSent : DateTime) :
    Except MailError EncodedMessage :=
  archive.encode draft.conversation (draftSender address draft) dateSent draft.text draft.footer
    (archive.draftAttachments draft.conversation)

/-- A message that is kept, as it is sent once more. -/
def encodeStored (archive : Archive) (id : UInt64) : Except MailError EncodedMessage := do
  let message ← orMissing (.missingMessage id) (archive.message id)
  let sender ← orMissing (.missingSender id) (archive.sender id)
  archive.encode message.conversation sender message.dateSent message.text message.footer
    (archive.attachments id)

end Archive

end SealedMail
