import SealedMail.Store.Basic

/-!
# Drafts

A conversation has at most one draft. Attachments are added to it one by one. Committing the draft
makes it a message that was sent. The draft is taken out before a number is found for the message,
so that it is lost if there is none.
-/

namespace SealedMail.Store

/-- The store with a draft in a conversation that is there, in place of an earlier one. -/
def saveDraft (store : Store) (draft : Draft) : Except StoreError Store :=
  match store.conversations.get? draft.conversation with
  | none => .error (.notFound (.conversation draft.conversation))
  | some _ => .ok { store with drafts := store.drafts.put draft.conversation draft }

def draft (store : Store) (conversation : UInt64) : Option Draft := store.drafts.get? conversation

def draftAttachmentList (store : Store) (conversation : UInt64) : List Attachment :=
  (store.draftAttachments.get? conversation).getD []

/-- What the index says about a payload at a position. -/
def describe (position : Nat) (filename mimeType note : String) (content : Bytes) :
    AttachmentInfo where
  index := UInt32.ofNat position
  filename := filename
  mimeType := mimeType
  note := note
  size := UInt32.ofNat content.length
  hash := Hex.encode (Sha512.digest content)

/-- Adds a payload to the draft of a conversation, behind those it has. Its length must fit into the
index. -/
def addDraftAttachment (store : Store) (conversation : UInt64)
    (filename mimeType note : String) (content : Bytes) : Except StoreError (AttachmentInfo × Store) :=
  if UInt32.size ≤ content.length then .error (.attachmentTooLarge content.length)
  else
    let list := store.draftAttachmentList conversation
    let info := describe list.length filename mimeType note content
    .ok (info,
      { store with
        draftAttachments := store.draftAttachments.put conversation (list ++ [⟨info, content⟩]) })

/-- The store without the draft of a conversation and its attachments. -/
def takeDraft (store : Store) (conversation : UInt64) : Store :=
  { store with
    drafts := store.drafts.erase conversation
    draftAttachments := store.draftAttachments.erase conversation }

/-- Why a draft was not committed. -/
inductive CommitFailure where
  | refused (error : StoreError)
  /-- No number was left for the message. The store is what was left when this was found out. -/
  | outOfNumbers (left : Store)

/-- Makes the draft of a conversation a message, sent from an address at a date. The message has the
next number. -/
def commitDraft (store : Store) (conversation : UInt64) (address : Address)
    (dateSent : DateTime) : Except CommitFailure (UInt64 × Store) :=
  match store.drafts.get? conversation with
  | none => .error (.refused (.notFound (.draft conversation)))
  | some draft =>
    let attachments := store.draftAttachmentList conversation
    let left := store.takeDraft conversation
    match left.messages.nextId? with
    | none => .error (.outOfNumbers left)
    | some id =>
      let message : StoredMessage := ⟨id, conversation, dateSent, draft.text, draft.footer⟩
      .ok (id, left.keepMessage message (Archive.draftSender address draft) none attachments)

end SealedMail.Store
