import SealedMail.Body.Basic
import SealedMail.Error.Message
import SealedMail.Field
import SealedMail.Json.Reader

/-!
# Reading bodies

A body as one of its readers sees it. The reader's own account is never among the participants;
the sender is, unless it is the reader. Every refusal names the first thing that is wrong, in the
order in which the fields are read.
-/

namespace SealedMail

/-- A body as read by one account. -/
structure ReceivedBody where
  sender : Sender
  /-- Everyone who takes part but the reader. -/
  participants : AddressSet
  dateSent : DateTime
  text : String
  footer : String
  attachments : List AttachmentInfo
  deriving DecidableEq

namespace ReceivedBody

def fault {α : Type} (fault : BodyFault) : Except MailError α := .error (.invalid (.body fault))

/-- The picture of the sender: none, an empty object, or its type and its data. -/
def readAvatar : Json → Except MailError (Option Avatar)
  | .null => .ok none
  | .object [] => .ok none
  | .object [first, second] => do
    -- where one of the two has another name, the field that should be there is null
    let json := Json.object [first, second]
    let mimeType ← Field.named "avatar mimeType" (Field.string false (json.field "mimeType"))
    let data ← Field.named "avatar data" (Field.base64 false (json.field "data"))
    return some ⟨mimeType, data⟩
  | .object _ => fault .avatarFields
  | _ => fault .avatarType

def readSender (json : Json) : Except MailError Sender := do
  let address ← Field.named "sender address" (Field.address (json.field "address"))
  let name ← Field.named "sender name" (Field.string false (json.field "name"))
  let organization ←
    Field.named "sender organization" (Field.stringOr "" (json.field "organization"))
  let avatar ← readAvatar (json.field "avatar")
  return ⟨address, name, organization, avatar⟩

/-- Adds a recipient to the participants, unless it is the reader. -/
def addRecipient (sender own : Address) (members : AddressSet) (json : Json) :
    Except MailError AddressSet := do
  let address ← Field.named "recipient address" (Field.address json)
  if address = sender then fault .recipientsContainSender
  else return if address = own then members else members.insert address

def readParticipants (sender own : Address) (json : Json) : Except MailError AddressSet :=
  match json with
  | .array [] => fault .recipientsEmpty
  | .array recipients =>
    recipients.foldlM (addRecipient sender own)
      (if sender = own then .empty else AddressSet.empty.insert sender)
  | _ => fault .recipientsNotArray

def readAttachment (position : Nat) (json : Json) : Except MailError AttachmentInfo := do
  let filename ← Field.named "attachment filename" (Field.string false (json.field "filename"))
  let mimeType ← Field.named "attachment mimeType" (Field.string false (json.field "mimeType"))
  let size ← Field.named "attachment size" (Field.unsigned (json.field "size"))
  let note ← Field.named "attachment note" (Field.stringOr "" (json.field "note"))
  let hash ← Field.named "attachment hash" (Field.hex false (json.field "hash"))
  return ⟨UInt32.ofNat position, filename, mimeType, note, size, hash⟩

/-- The attachments from a position of the index on. A position has 32 bits. -/
def readEntries (position : Nat) : List Json → Except MailError (List AttachmentInfo)
  | [] => .ok []
  | entry :: rest =>
    if UInt32.size ≤ position then fault .tooManyAttachments
    else do
      let info ← readAttachment position entry
      return info :: (← readEntries (position + 1) rest)

/-- The index of attachments, which may be left out. -/
def readAttachments : Json → Except MailError (List AttachmentInfo)
  | .null => .ok []
  | .array entries => readEntries 0 entries
  | _ => fault .attachmentsNotArray

/-- The body that an object describes to the account `own`. -/
def ofJson (own : Address) (json : Json) : Except MailError ReceivedBody := do
  if !json.isObject then fault .notObject
  else if !(json.field "sender").isObject then fault .senderNotObject
  else
    -- of several faults the first one in this order is told
    let sender ← readSender (json.field "sender")
    let participants ← readParticipants sender.address own (json.field "recipients")
    let attachments ← readAttachments (json.field "attachmentsIndex")
    let dateSent ← Field.named "date sent" (Field.date (json.field "dateSent"))
    let text ← Field.named "text" (Field.stringOr "" (json.field "text"))
    let footer ← Field.named "footer" (Field.stringOr "" (json.field "footer"))
    return ⟨sender, participants, dateSent, text, footer, attachments⟩

def ofBytes (own : Address) (b : Bytes) : Except MailError ReceivedBody :=
  match Json.ofBytes? b with
  | some json => ofJson own json
  | none => fault .notJson

end ReceivedBody

end SealedMail
