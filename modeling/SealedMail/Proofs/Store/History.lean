import Mathlib.Tactic.Lemma
import SealedMail.Store.Drafts
import SealedMail.Store.Received

/-!
# Histories of stores

Requests of all kinds come to a store in any order. A request that is refused changes nothing, and
one for which there is no number stops (`Store.after`). What each request can do to a store is said
once, by `Store.Step`, and everything that holds of all stores is read off it: rows are found under
their own numbers (`Step.consistent`, `Reachable.consistent`), and conversations, pictures and keys
stay as they are once they are there (`Step.conversations_grow`, `Step.avatars_grow`,
`Step.privateKeys_grow`, `Step.publicKeys_grow`).
-/

namespace SealedMail

/-! ## Tables -/

namespace Table

variable {κ α : Type} [DecidableEq κ]

/-- Every row is under its own key. -/
def Keyed (table : Table κ α) (key : α → κ) : Prop :=
  ∀ n row, table.get? n = some row → key row = n

/-- Every row of a table is in a later one. -/
def Grows (table later : Table κ α) : Prop :=
  ∀ n row, table.get? n = some row → later.get? n = some row

variable {table later : Table κ α} {key : α → κ}

lemma keyed_empty : (empty : Table κ α).Keyed key := nofun

/-- A table stays keyed if a row is put under its own key. -/
lemma Keyed.put (keyed : table.Keyed key) {n : κ} {row : α} (h : key row = n) :
    (table.put n row).Keyed key := by
  intro m found h'
  rcases of_get?_put h' with ⟨rfl, rfl⟩ | ⟨_, before⟩
  · exact h
  · exact keyed m found before

/-- A table stays keyed if a new row comes under its own key. -/
lemma Keyed.putNew (keyed : table.Keyed key) {n : κ} {row : α} (h : key row = n) :
    (table.putNew n row).Keyed key := by
  rw [Table.putNew]
  split
  next => exact keyed
  next => exact keyed.put h

/-- A table stays keyed if a row is erased. -/
lemma Keyed.erase (keyed : table.Keyed key) (n : κ) : (table.erase n).Keyed key := by
  intro m found h
  exact keyed m found (get?_of_erase h)

lemma Grows.refl (table : Table κ α) : table.Grows table := fun _ _ h => h

lemma Grows.trans {last : Table κ α} (first : table.Grows later) (second : later.Grows last) :
    table.Grows last := fun n row h => second n row (first n row h)

/-- A row under a free key takes the place of none. -/
lemma grows_put {n : κ} (free : table.get? n = none) (row : α) : table.Grows (table.put n row) := by
  intro m found h
  rw [get?_put, if_neg, h]
  rintro rfl
  rw [free] at h
  cases h

/-- A new row takes the place of none. -/
lemma grows_putNew (table : Table κ α) (n : κ) (row : α) : table.Grows (table.putNew n row) := by
  rw [putNew]
  split
  next => exact .refl table
  next free => exact grows_put (Option.not_isSome_iff_eq_none.mp free) row

end Table

namespace Store

/-! ## Requests -/

/-- What can be asked of a store. -/
inductive Request where
  | addPrivateKey (id : UInt32) (key : PrivateKey)
  | addPublicKey (address : Address) (id : UInt32) (key : PublicKey)
  | createConversation (participants : AddressSet)
  | saveDraft (draft : Draft)
  | addDraftAttachment (conversation : UInt64) (filename mimeType note : String)
      (content : Bytes)
  | commitDraft (conversation : UInt64) (address : Address) (dateSent : DateTime)
  | saveMessage (message : DecodedMessage) (conversation : Conversation)
  | setFlags (id : UInt64) (read done : Bool)
  /-- A sink for a payload is closed, after it has taken what it has. -/
  | closeSink (check : DigestCheck) (payload : IncomingPayload)

/-- The store that committing a draft gives, or leaves if it fails. -/
def afterCommit (store : Store) : Except CommitFailure (UInt64 × Store) → Store
  | .ok (_, store') => store'
  | .error (.refused _) => store
  | .error (.outOfNumbers left) => left

/-- The store after a request. A request that is refused changes nothing. -/
def after (store : Store) : Request → Store
  | .addPrivateKey id key => (store.addPrivateKey id key).toOption.getD store
  | .addPublicKey address id key => (store.addPublicKey address id key).toOption.getD store
  | .createConversation participants =>
    ((store.createConversation participants).map Prod.snd).getD store
  | .saveDraft draft => (store.saveDraft draft).toOption.getD store
  | .addDraftAttachment conversation filename mimeType note content =>
    ((store.addDraftAttachment conversation filename mimeType note content).map
      Prod.snd).toOption.getD store
  | .commitDraft conversation address dateSent =>
    store.afterCommit (store.commitDraft conversation address dateSent)
  | .saveMessage message conversation => store.saveMessage message conversation
  | .setFlags id read done => (store.setFlags id read done).toOption.getD store
  | .closeSink check payload =>
    ((attachmentSinks payload.message).sink.close ((check, payload), store)).2.2

/-- The store after requests that come one after the other. -/
def afterAll (store : Store) (requests : List Request) : Store := requests.foldl after store

/-- Requests come one after the other. -/
lemma afterAll_append (store : Store) (requests later : List Request) :
    store.afterAll (requests ++ later) = (store.afterAll requests).afterAll later :=
  List.foldl_append

/-- A store that comes of an empty one. -/
inductive Reachable : Store → Prop where
  | empty : Reachable empty
  | after {store} (request : Request) : Reachable store → Reachable (store.after request)

/-- Whatever is asked of a store that can come up, it can come up. -/
lemma Reachable.afterAll {store : Store} (reachable : store.Reachable) (requests : List Request) :
    (store.afterAll requests).Reachable := by
  induction requests generalizing store with
  | nil => exact reachable
  | cons request rest ih => exact ih (reachable.after request)

/-! ## Steps -/

/-- What a request can make of a store: nothing at all, or what is written here, where it may. -/
inductive Step (store : Store) : Request → Store → Prop where
  | refused {request} : Step store request store
  | addPrivateKey {id key} :
    store.privateKeys.get? (key.purpose, id) = none →
    Step store (.addPrivateKey id key)
      { store with privateKeys := store.privateKeys.put (key.purpose, id) key }
  | addPublicKey {address id key} :
    store.publicKeys.get? (address, key.purpose, id) = none →
    Step store (.addPublicKey address id key)
      { store with publicKeys := store.publicKeys.put (address, key.purpose, id) key }
  | createConversation {participants id} :
    store.conversations.nextId? = some id →
    Step store (.createConversation participants)
      { store with conversations := store.conversations.put id ⟨id, participants⟩ }
  | saveDraft {draft conversation} :
    store.conversations.get? draft.conversation = some conversation →
    Step store (.saveDraft draft)
      { store with drafts := store.drafts.put draft.conversation draft }
  | addDraftAttachment {conversation filename mimeType note content list} :
    content.length < UInt32.size →
    list = store.draftAttachmentList conversation →
    Step store (.addDraftAttachment conversation filename mimeType note content)
      { store with
        draftAttachments := store.draftAttachments.put conversation
          (list ++ [⟨describe list.length filename mimeType note content, content⟩]) }
  | commitDraft {conversation address dateSent draft id} :
    store.drafts.get? conversation = some draft →
    store.messages.nextId? = some id →
    Step store (.commitDraft conversation address dateSent)
      ((store.takeDraft conversation).keepMessage
        ⟨id, conversation, dateSent, draft.text, draft.footer⟩
        (Archive.draftSender address draft) none (store.draftAttachmentList conversation))
  /-- There is no number for the message, and the draft is lost. -/
  | loseDraft {conversation address dateSent draft} :
    store.drafts.get? conversation = some draft →
    store.messages.IsFull →
    Step store (.commitDraft conversation address dateSent) (store.takeDraft conversation)
  | saveMessage {message conversation} :
    Step store (.saveMessage message conversation) (store.saveMessage message conversation)
  | setFlags {id read done message sender record} :
    store.messages.get? id = some ⟨message, sender, some record⟩ →
    Step store (.setFlags id read done)
      { store with
        messages := store.messages.put id ⟨message, sender, some { record with read, done }⟩ }
  | closeSink {check payload list} :
    check.isRight = true →
    fillSlot payload.index payload.pieces.reverse.flatten
      (store.archive.attachments payload.message) = some list →
    Step store (.closeSink check payload)
      { store with attachments := store.attachments.put payload.message list }

variable {store store' : Store} {request : Request}

/-- A conversation that is created has the next number. -/
lemma createConversation_eq_some {participants : AddressSet} {conversation : Conversation} :
    store.createConversation participants = some (conversation, store') ↔
      ∃ id, store.conversations.nextId? = some id ∧ conversation = ⟨id, participants⟩ ∧
        store' = { store with conversations := store.conversations.put id conversation } := by
  rw [createConversation]
  cases store.conversations.nextId? with
  | none => exact ⟨nofun, fun ⟨_, next, _⟩ => nomatch next⟩
  | some id =>
    refine ⟨fun created => ?_, fun ⟨_, next, members, stored⟩ => ?_⟩
    · cases created
      exact ⟨id, rfl, rfl, rfl⟩
    · cases next
      cases members
      cases stored
      rfl

/-- No conversation is created exactly if the last number is in use. -/
lemma createConversation_eq_none {participants : AddressSet} :
    store.createConversation participants = none ↔ store.conversations.IsFull := by
  rw [← Table.nextId?_eq_none, createConversation]
  cases store.conversations.nextId? with
  | none => exact ⟨fun _ => rfl, fun _ => rfl⟩
  | some id => exact ⟨nofun, nofun⟩

/-- A draft that is committed becomes a message with the next number. -/
lemma of_commitDraft {conversation id : UInt64} {address : Address} {dateSent : DateTime}
    (h : store.commitDraft conversation address dateSent = .ok (id, store')) :
    ∃ draft, store.draft conversation = some draft ∧ store.messages.nextId? = some id ∧
      store' = (store.takeDraft conversation).keepMessage
        ⟨id, conversation, dateSent, draft.text, draft.footer⟩
        (Archive.draftSender address draft) none (store.draftAttachmentList conversation) := by
  rw [commitDraft] at h
  split at h
  next => cases h
  next draft found =>
    dsimp only at h
    split at h
    next => cases h
    next next =>
      cases h
      exact ⟨draft, found, next, rfl⟩

/-- Committing a draft stops exactly if it is there and the last number is in use. The draft was taken
out by then. -/
lemma commitDraft_eq_outOfNumbers {conversation : UInt64} {address : Address}
    {dateSent : DateTime} {left : Store} :
    store.commitDraft conversation address dateSent = .error (.outOfNumbers left) ↔
      (∃ draft, store.draft conversation = some draft) ∧ store.messages.IsFull ∧
        left = store.takeDraft conversation := by
  rw [← Table.nextId?_eq_none, commitDraft, Store.draft]
  cases store.drafts.get? conversation with
  | none => exact ⟨nofun, fun ⟨⟨_, found⟩, _⟩ => nomatch found⟩
  | some draft =>
    dsimp only [takeDraft]
    cases store.messages.nextId? with
    | some id => exact ⟨nofun, fun ⟨_, full, _⟩ => nomatch full⟩
    | none =>
      refine ⟨fun h => ?_, fun ⟨_, _, left⟩ => ?_⟩
      · cases h
        exact ⟨⟨draft, rfl⟩, rfl, rfl⟩
      · rw [left]

/-- A draft that is there is committed if there is a number for it. -/
lemma exists_commitDraft {conversation id : UInt64} {draft : Draft}
    (saved : store.draft conversation = some draft) (next : store.messages.nextId? = some id)
    (address : Address) (dateSent : DateTime) :
    ∃ store', store.commitDraft conversation address dateSent = .ok (id, store') := by
  rw [Store.draft] at saved
  rw [commitDraft, saved]
  dsimp only
  rw [show (store.takeDraft conversation).messages.nextId? = some id from next]
  exact ⟨_, rfl⟩

/-- A payload that was stored is at its place, and nothing else has changed. -/
lemma of_storePayload {payload : IncomingPayload} (h : store.storePayload payload = .ok store') :
    ∃ list,
      fillSlot payload.index payload.pieces.reverse.flatten
        (store.archive.attachments payload.message) = some list ∧
      store' = { store with attachments := store.attachments.put payload.message list } := by
  rw [storePayload] at h
  split at h
  next list filled =>
    cases h
    exact ⟨list, filled, rfl⟩
  next => cases h

/-- A sink that is closed changes its store if the digest is right and there is a place for the
payload. -/
lemma close_attachmentSinks (id : UInt64) (check : DigestCheck) (payload : IncomingPayload)
    (store : Store) :
    (attachmentSinks id).sink.close ((check, payload), store) =
      if check.isRight then
        match store.storePayload payload with
        | .ok store' => (.ok (), (check.restart, { payload with pieces := [] }), store')
        | .error e => (.error e, (check.restart, payload), store)
      else (.error (.integrity (.hashMismatch check.index)), (check.restart, payload), store) := by
  simp only [attachmentSinks, SinkFactory.checked, Sink.within, Sink.checked, payloadSink]
  cases check.isRight with
  | false => rfl
  | true =>
    cases store.storePayload payload with
    | error e => rfl
    | ok store' => rfl

/-- Requests do nothing but what a step does. -/
theorem step_after (store : Store) (request : Request) :
    Step store request (store.after request) := by
  cases request with
  | addPrivateKey id key =>
    rw [after, Store.addPrivateKey]
    split
    next => exact .refused
    next free => exact .addPrivateKey free
  | addPublicKey address id key =>
    rw [after, Store.addPublicKey]
    split
    next =>
      split
      next => exact .refused
      next => exact .refused
    next free => exact .addPublicKey free
  | createConversation participants =>
    rw [after]
    cases created : store.createConversation participants with
    | none => exact .refused
    | some result =>
      obtain ⟨conversation, store'⟩ := result
      obtain ⟨id, next, rfl, rfl⟩ := createConversation_eq_some.mp created
      exact .createConversation next
  | saveDraft draft =>
    rw [after, Store.saveDraft]
    split
    next => exact .refused
    next found => exact .saveDraft found
  | addDraftAttachment conversation filename mimeType note content =>
    rw [after, Store.addDraftAttachment]
    split
    next => exact .refused
    next fits => exact .addDraftAttachment (Nat.not_le.mp fits) rfl
  | commitDraft conversation address dateSent =>
    rw [after]
    cases result : store.commitDraft conversation address dateSent with
    | ok sent =>
      obtain ⟨id, store'⟩ := sent
      obtain ⟨draft, found, next, rfl⟩ := of_commitDraft result
      exact .commitDraft found next
    | error failure =>
      cases failure with
      | refused e => exact .refused
      | outOfNumbers left =>
        obtain ⟨⟨draft, found⟩, full, rfl⟩ := commitDraft_eq_outOfNumbers.mp result
        exact .loseDraft found full
  | saveMessage message conversation => exact .saveMessage
  | setFlags id read done =>
    rw [after, Store.setFlags]
    split
    next found => exact .setFlags found
    next => exact .refused
  | closeSink check payload =>
    rw [after, close_attachmentSinks]
    cases right : check.isRight with
    | false => exact .refused
    | true =>
      cases stored : store.storePayload payload with
      | error e => exact .refused
      | ok store' =>
        obtain ⟨list, filled, rfl⟩ := of_storePayload stored
        exact .closeSink right filled

/-! ## What every request keeps -/

/-- Conversations, drafts and pictures are found under their own numbers. -/
structure Consistent (store : Store) : Prop where
  conversations : store.conversations.Keyed Conversation.id
  drafts : store.drafts.Keyed Draft.conversation
  avatars : store.avatars.Keyed avatarId

/-- The pictures with one more, unless its number is taken. -/
def withAvatar (avatars : Table Int Avatar) : Option Avatar → Table Int Avatar
  | none => avatars
  | some avatar => avatars.putNew (avatarId avatar) avatar

/-- Pictures stay under their own numbers. -/
lemma keyed_withAvatar {avatars : Table Int Avatar} (keyed : avatars.Keyed avatarId)
    (avatar : Option Avatar) : (withAvatar avatars avatar).Keyed avatarId := by
  cases avatar with
  | none => exact keyed
  | some avatar => exact keyed.putNew rfl

/-- No picture is lost when one comes in. -/
lemma grows_withAvatar (avatars : Table Int Avatar) (avatar : Option Avatar) :
    avatars.Grows (withAvatar avatars avatar) := by
  cases avatar with
  | none => exact .refl _
  | some avatar => exact Table.grows_putNew _ _ _

/-- A message that is kept is put under its number, with its attachments and its picture. -/
lemma keepMessage_eq (store : Store) (message : StoredMessage) (sender : Sender)
    (received : Option MessageRecord) (attachments : List Attachment) :
    store.keepMessage message sender received attachments =
      { store with
        messages := store.messages.put message.id ⟨message, senderRow sender, received⟩
        attachments := store.attachments.put message.id attachments
        avatars := withAvatar store.avatars sender.avatar } := by
  rw [keepMessage]
  cases sender.avatar with
  | none => rfl
  | some avatar => rfl

/-- What holds within a store holds after a step. -/
theorem Step.consistent (step : Step store request store') (consistent : store.Consistent) :
    store'.Consistent := by
  cases step with
  | createConversation =>
    exact ⟨consistent.conversations.put rfl, consistent.drafts, consistent.avatars⟩
  | saveDraft => exact ⟨consistent.conversations, consistent.drafts.put rfl, consistent.avatars⟩
  | commitDraft =>
    rw [keepMessage_eq]
    exact ⟨consistent.conversations, consistent.drafts.erase _,
      keyed_withAvatar consistent.avatars _⟩
  | loseDraft => exact ⟨consistent.conversations, consistent.drafts.erase _, consistent.avatars⟩
  | saveMessage =>
    rw [Store.saveMessage, keepMessage_eq]
    exact ⟨consistent.conversations.putNew rfl, consistent.drafts,
      keyed_withAvatar consistent.avatars _⟩
  | _ => exact ⟨consistent.conversations, consistent.drafts, consistent.avatars⟩

/-- Every store that can come up is consistent. -/
theorem Reachable.consistent (reachable : store.Reachable) : store.Consistent := by
  induction reachable with
  | empty => exact ⟨Table.keyed_empty, Table.keyed_empty, Table.keyed_empty⟩
  | after request _ ih => exact (step_after _ request).consistent ih

/-- No step loses a conversation. -/
theorem Step.conversations_grow (step : Step store request store') :
    store.conversations.Grows store'.conversations := by
  cases step with
  | createConversation next => exact Table.grows_put (Table.get?_of_nextId? next) _
  | commitDraft =>
    rw [keepMessage_eq]
    exact .refl _
  | saveMessage =>
    rw [Store.saveMessage, keepMessage_eq]
    exact Table.grows_putNew _ _ _
  | _ => exact .refl _

/-- A table that grows with every request grows with requests that come one after the other. -/
lemma grows_afterAll {κ α : Type} [DecidableEq κ] {table : Store → Table κ α}
    (grows : ∀ {store store' : Store} {request : Request}, Step store request store' →
      (table store).Grows (table store')) (store : Store) (requests : List Request) :
    (table store).Grows (table (store.afterAll requests)) := by
  induction requests generalizing store with
  | nil => exact .refl _
  | cons request rest ih => exact (grows (step_after store request)).trans (ih _)

/-- No conversation is lost, whatever is asked. -/
lemma conversations_grow_afterAll (store : Store) (requests : List Request) :
    store.conversations.Grows (store.afterAll requests).conversations :=
  grows_afterAll Step.conversations_grow store requests

/-- No step loses a picture. -/
theorem Step.avatars_grow (step : Step store request store') :
    store.avatars.Grows store'.avatars := by
  cases step with
  | commitDraft =>
    rw [keepMessage_eq]
    exact grows_withAvatar _ _
  | saveMessage =>
    rw [Store.saveMessage, keepMessage_eq]
    exact grows_withAvatar _ _
  | _ => exact .refl _

/-- Private keys are only added, one at a time, under a number that is free for their purpose. -/
lemma Step.privateKeys_eq (step : Step store request store') :
    store'.privateKeys = store.privateKeys ∨
      ∃ id key, store.privateKeys.get? (key.purpose, id) = none ∧
        store'.privateKeys = store.privateKeys.put (key.purpose, id) key := by
  cases step with
  | addPrivateKey free => exact .inr ⟨_, _, free, rfl⟩
  | commitDraft =>
    rw [keepMessage_eq]
    exact .inl rfl
  | saveMessage =>
    rw [Store.saveMessage, keepMessage_eq]
    exact .inl rfl
  | _ => exact .inl rfl

/-- Public keys are only added, one at a time, under a number of their owner that is free for their
purpose. -/
lemma Step.publicKeys_eq (step : Step store request store') :
    store'.publicKeys = store.publicKeys ∨
      ∃ address id key, store.publicKeys.get? (address, key.purpose, id) = none ∧
        store'.publicKeys = store.publicKeys.put (address, key.purpose, id) key := by
  cases step with
  | addPublicKey free => exact .inr ⟨_, _, _, free, rfl⟩
  | commitDraft =>
    rw [keepMessage_eq]
    exact .inl rfl
  | saveMessage =>
    rw [Store.saveMessage, keepMessage_eq]
    exact .inl rfl
  | _ => exact .inl rfl

/-- No step loses a private key. -/
theorem Step.privateKeys_grow (step : Step store request store') :
    store.privateKeys.Grows store'.privateKeys := by
  rcases step.privateKeys_eq with same | ⟨id, key, free, added⟩
  · rw [same]
    exact .refl _
  · rw [added]
    exact Table.grows_put free key

/-- No step loses a public key. -/
theorem Step.publicKeys_grow (step : Step store request store') :
    store.publicKeys.Grows store'.publicKeys := by
  rcases step.publicKeys_eq with same | ⟨address, id, key, free, added⟩
  · rw [same]
    exact .refl _
  · rw [added]
    exact Table.grows_put free key

end Store

end SealedMail
