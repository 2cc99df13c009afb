import SealedMail.Digest.Sha256
import SealedMail.Incoming.Decoding
import SealedMail.KeyRing
import SealedMail.Outgoing.Encoding
import SealedMail.Store.Table

/-!
# Stores

All that one account keeps: its private keys, the public keys of others, conversations, drafts, and
messages with their attachments. The picture of a sender is kept once for all messages with it,
under a number that its data determines. Numbers of conversations and messages have 64 bits. The
next one may not exist, and what would need it is not done.
-/

namespace SealedMail

/-- Who a kept message is from, with the number of the picture. -/
structure SenderRow where
  address : Address
  name : String
  organization : String
  avatar : Option Int

/-- A kept message. -/
structure MessageRow where
  message : StoredMessage
  sender : SenderRow
  /-- The record of a message that was received. -/
  received : Option MessageRecord

/-- What an account keeps. -/
structure Store where
  privateKeys : Table (KeyPurpose × UInt32) PrivateKey
  publicKeys : Table (Address × KeyPurpose × UInt32) PublicKey
  conversations : Table UInt64 Conversation
  drafts : Table UInt64 Draft
  draftAttachments : Table UInt64 (List Attachment)
  messages : Table UInt64 MessageRow
  attachments : Table UInt64 (List Attachment)
  avatars : Table Int Avatar

namespace Store

def empty : Store := ⟨.empty, .empty, .empty, .empty, .empty, .empty, .empty, .empty⟩

/-! ## Keys -/

/-- The store with one more private key, whose number must be free. -/
def addPrivateKey (store : Store) (id : UInt32) (key : PrivateKey) : Except StoreError Store :=
  match store.privateKeys.get? (key.purpose, id) with
  | some _ => .error (.keyConflict key.purpose id)
  | none => .ok { store with privateKeys := store.privateKeys.put (key.purpose, id) key }

def privateKey (store : Store) (purpose : KeyPurpose) (id : UInt32) :
    Except StoreError PrivateKey :=
  match store.privateKeys.get? (purpose, id) with
  | some key => .ok key
  | none => .error (.notFound (.privateKey purpose id))

def keyRing {σ : Type} (store : Store) : KeyRing σ := fun purpose id =>
  pure ((store.privateKey purpose id).mapError .store)

/-- The store with one more public key of an account. A number that is taken must have this key. -/
def addPublicKey (store : Store) (address : Address) (id : UInt32) (key : PublicKey) :
    Except StoreError Store :=
  match store.publicKeys.get? (address, key.purpose, id) with
  | some known => if known = key then .ok store else .error (.keyConflict key.purpose id)
  | none =>
    .ok { store with publicKeys := store.publicKeys.put (address, key.purpose, id) key }

def directory (store : Store) : Directory := fun address purpose id =>
  store.publicKeys.get? (address, purpose, id)

/-! ## Conversations -/

def conversationList (store : Store) : List Conversation := store.conversations.inOrder

def findConversation (store : Store) (participants : AddressSet) : Option Conversation :=
  store.conversationList.find? fun conversation => conversation.participants = participants

/-- A new conversation of these accounts, under the next number if there is one. -/
def createConversation (store : Store) (participants : AddressSet) :
    Option (Conversation × Store) := do
  let id ← store.conversations.nextId?
  let conversation : Conversation := ⟨id, participants⟩
  return (conversation, { store with conversations := store.conversations.put id conversation })

/-- The conversation of exactly these accounts, which is created if there is none. -/
def conversationOf (store : Store) (participants : AddressSet) : Option (Conversation × Store) :=
  match store.findConversation participants with
  | some conversation => some (conversation, store)
  | none => store.createConversation participants

/-! ## Pictures -/

def avatarId (avatar : Avatar) : Int := Sha256.identifier avatar.data

/-- The store with a picture, unless its number is taken. -/
def keepAvatar (store : Store) : Option Avatar → Store
  | none => store
  | some avatar => { store with avatars := store.avatars.putNew (avatarId avatar) avatar }

/-- A sender with the number of the picture in place of the picture. -/
def senderRow (sender : Sender) : SenderRow :=
  ⟨sender.address, sender.name, sender.organization, sender.avatar.map avatarId⟩

def sender (store : Store) (row : SenderRow) : Sender :=
  ⟨row.address, row.name, row.organization, row.avatar.bind store.avatars.get?⟩

/-! ## Messages -/

/-- What is looked up in the store when a message is encoded. -/
def archive (store : Store) : Archive where
  conversation := store.conversations.get?
  draftAttachments id := (store.draftAttachments.get? id).getD []
  message id := (store.messages.get? id).map MessageRow.message
  sender id := (store.messages.get? id).map fun row => store.sender row.sender
  attachments id := (store.attachments.get? id).getD []

/-- The archive finds a message as its row shows it. -/
theorem archive_message (store : Store) (id : UInt64) :
    store.archive.message id = (store.messages.get? id).map MessageRow.message := rfl

/-- The archive finds the sender of a message with the picture that the store has. -/
theorem archive_sender (store : Store) (id : UInt64) :
    store.archive.sender id = (store.messages.get? id).map fun row => store.sender row.sender := rfl

/-- The archive finds the attachments of a message, and none of one that is not there. -/
theorem archive_attachments (store : Store) (id : UInt64) :
    store.archive.attachments id = (store.attachments.get? id).getD [] := rfl

def messageRecord (store : Store) (id : UInt64) : Option MessageRecord :=
  (store.messages.get? id).bind MessageRow.received

def attachmentContent (store : Store) (id : UInt64) (index : UInt32) : Option Bytes :=
  ((store.archive.attachments id).find? fun attachment => attachment.info.index = index).map
    Attachment.content

/-- The store with a message that is from a sender and has these attachments. -/
def keepMessage (store : Store) (message : StoredMessage) (sender : Sender)
    (received : Option MessageRecord) (attachments : List Attachment) : Store :=
  let store := store.keepAvatar sender.avatar
  { store with
    -- what was under the number is replaced
    messages := store.messages.put message.id ⟨message, senderRow sender, received⟩
    attachments := store.attachments.put message.id attachments }

end Store

end SealedMail
