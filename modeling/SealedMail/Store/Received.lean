import SealedMail.Attachment.Sink
import SealedMail.Store.Basic

/-!
# Received messages

A message that was read is kept in a conversation under its own number. Its payloads are empty at
first and come through sinks that check their digests.
-/

namespace SealedMail.Store

/-- The store with a message in a conversation, which is added if its number is free. -/
def saveMessage (store : Store) (message : DecodedMessage) (conversation : Conversation) : Store :=
  let store := { store with
    conversations := store.conversations.putNew conversation.id conversation }
  -- the number came with the message; another message may have it
  let record := message.record
  store.keepMessage ⟨record.id, conversation.id, record.dateSent, record.text, record.footer⟩
    message.sender (some record) (message.attachments.map fun info => ⟨info, []⟩)

/-- The store with a received message marked as read and done with, or not. -/
def setFlags (store : Store) (id : UInt64) (read done : Bool) : Except StoreError Store :=
  match store.messages.get? id with
  | some { message, sender, received := some record } =>
    .ok { store with
      messages := store.messages.put id ⟨message, sender, some { record with read, done }⟩ }
  | _ => .error (.notFound (.receivedMessage id))

/-- A payload on its way into a store: the message, the position in its index, and the pieces so
far, the last one first. -/
structure IncomingPayload where
  message : UInt64
  index : UInt32
  pieces : List Bytes

/-- The list with a payload at the first attachment with the given position, if there is one. -/
def fillSlot (index : UInt32) (content : Bytes) : List Attachment → Option (List Attachment)
  | [] => none
  | attachment :: rest =>
    if attachment.info.index = index then some ({ attachment with content } :: rest)
    else (fillSlot index content rest).map (attachment :: ·)

def storePayload (store : Store) (payload : IncomingPayload) : Except MailError Store :=
  match fillSlot payload.index payload.pieces.reverse.flatten
      (store.archive.attachments payload.message) with
  | some list => .ok { store with attachments := store.attachments.put payload.message list }
  | none => .error (.integrity (.missingMessage payload.message))

/-- A sink that collects a payload and stores it when it is closed. -/
def payloadSink : Sink (IncomingPayload × Store) where
  write b := fun (payload, store) => (.ok (), { payload with pieces := b :: payload.pieces }, store)
  close := fun (payload, store) =>
    match store.storePayload payload with
    | .ok store => (.ok (), { payload with pieces := [] }, store)
    | .error e => (.error e, payload, store)

/-- The sinks for the attachments of a message. -/
def attachmentSinks (message : UInt64) : SinkFactory Store (DigestCheck × IncomingPayload) :=
  SinkFactory.checked {
    make := fun slot => pure ⟨message, slot.index, []⟩
    sink := payloadSink }

end SealedMail.Store
