import SealedMail.Address.Set
import SealedMail.Bytes.Basic
import SealedMail.DateTime.Basic

/-!
# Parts of messages

The records from which messages are made: who sends, what is attached, and to whom a conversation
goes.
-/

namespace SealedMail

/-- The picture of a sender. -/
structure Avatar where
  mimeType : String
  data : Bytes
  deriving DecidableEq

/-- Who a message is from. -/
structure Sender where
  address : Address
  name : String
  organization : String
  avatar : Option Avatar
  deriving DecidableEq

/-- What the index of a message says about one attachment. -/
structure AttachmentInfo where
  /-- The position in the index. -/
  index : UInt32
  filename : String
  mimeType : String
  note : String
  /-- The length of the payload in bytes. -/
  size : UInt32
  /-- The SHA-512 digest of the payload in hexadecimal digits. -/
  hash : String
  deriving DecidableEq

structure Attachment where
  info : AttachmentInfo
  content : Bytes
  deriving DecidableEq

/-- A conversation: the accounts that take part, without the user's own. -/
structure Conversation where
  id : UInt64
  participants : AddressSet
  deriving DecidableEq

/-- A message that is being written. -/
structure Draft where
  conversation : UInt64
  senderName : String
  senderOrganization : String
  senderAvatar : Option Avatar
  text : String
  footer : String
  deriving DecidableEq

/-- A message that was sent or received, without its sender and attachments. -/
structure StoredMessage where
  id : UInt64
  conversation : UInt64
  dateSent : DateTime
  text : String
  footer : String
  deriving DecidableEq

end SealedMail
