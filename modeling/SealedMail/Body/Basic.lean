import SealedMail.Bytes.Base64
import SealedMail.DateTime.Rfc3339
import SealedMail.Json.Printer
import SealedMail.Message

/-!
# Bodies

The body of a message is a JSON object: who sends it, who receives it, when it was sent, its text
and footer, and the index of its attachments. This module writes bodies; `SealedMail.Body.Reader`
reads them.
-/

namespace SealedMail

/-- What is written into a body. -/
structure Body where
  sender : Sender
  recipients : AddressSet
  dateSent : DateTime
  text : String
  footer : String
  attachments : List AttachmentInfo
  deriving DecidableEq

namespace Body

/-- The picture of a sender; nothing of it if its type or its data is missing. -/
def avatarFields : Option Avatar → List (String × Json)
  | none => []
  | some avatar =>
    if avatar.mimeType.isEmpty || avatar.data.isEmpty then []
    else [("mimeType", .string avatar.mimeType), ("data", .string (Base64.encode avatar.data))]

def senderJson (sender : Sender) : Json :=
  .ofFields [
    ("address", .string sender.address.text),
    ("name", .string sender.name),
    ("organization", .string sender.organization),
    ("avatar", .ofFields (avatarFields sender.avatar))]

/-- An entry of the index of attachments. The position is not written; it is the place in the
index. -/
def attachmentJson (info : AttachmentInfo) : Json :=
  .ofFields [
    ("filename", .string info.filename),
    ("mimeType", .string info.mimeType),
    ("note", .string info.note),
    ("size", .integer info.size.toNat),
    ("hash", .string info.hash)]

def toJson (body : Body) : Json :=
  .ofFields [
    ("sender", senderJson body.sender),
    ("recipients", .array (body.recipients.toList.map fun a => .string a.text)),
    ("dateSent", .string body.dateSent.render),
    ("text", .string body.text),
    ("footer", .string body.footer),
    ("attachmentsIndex", .array (body.attachments.map attachmentJson))]

def toBytes (body : Body) : Bytes := body.toJson.toBytes

end Body

end SealedMail
