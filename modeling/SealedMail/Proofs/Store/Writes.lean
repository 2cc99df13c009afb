import SealedMail.Proofs.Store.History

/-!
# Writes

A request to a store is answered or refused, or it stops because there is no number for what it
would make (`Store.outcome`). It is carried out write by write (`Request.perform`), and what is
written stays written if the request ends after it. Each operation gives what its writes give
(`Request.perform_eq`), and a request that is refused has written nothing that shows
(`Request.store_eq_of_refused`): drafts are taken out before it is known that there is one, but then
none was there. Only a draft for which there is no number was there, and is lost
(`Request.outOfNumbers_iff`).
-/

namespace SealedMail

namespace Table

variable {κ α : Type} [DecidableEq κ]

/-- To erase what is not there changes nothing. -/
lemma erase_of_get? {table : Table κ α} {key : κ} (free : table.get? key = none) :
    table.erase key = table := by
  have kept : table.rows.filter (fun row => row.1 ≠ key) = table.rows := by
    refine List.filter_eq_self.mpr fun row mem => decide_eq_true ?_
    rintro rfl
    rw [mem_rows.mp mem] at free
    cases free
  obtain ⟨rows, nodup⟩ := table
  simp only [erase, kept]

end Table

namespace Store

/-! ## Answers -/

/-- Why a request was refused. -/
inductive Refusal where
  | store (error : StoreError)
  | mail (error : MailError)

/-- How a request ends that is not answered. -/
inductive Failure where
  | refused (refusal : Refusal)
  /-- The last number was in use. The request ended where it needed the next one. -/
  | outOfNumbers

/-- What is answered to a request. -/
inductive Answer where
  | done
  | conversation (conversation : Conversation)
  | attachment (info : AttachmentInfo)
  | message (id : UInt64)

/-- The answer of an operation, and the store that it gives. A store is kept by an operation that
gives none. -/
def settle (store : Store) : Except StoreError (Answer × Store) → Except Failure Answer × Store
  | .ok (answer, store') => (.ok answer, store')
  | .error e => (.error (.refused (.store e)), store)

/-- What is answered to a request, and the store after it. -/
def outcome (store : Store) : Request → Except Failure Answer × Store
  | .addPrivateKey id key => store.settle ((store.addPrivateKey id key).map (.done, ·))
  | .addPublicKey address id key =>
    store.settle ((store.addPublicKey address id key).map (.done, ·))
  | .createConversation participants =>
    match store.createConversation participants with
    | some (conversation, store') => (.ok (.conversation conversation), store')
    | none => (.error .outOfNumbers, store)
  | .saveDraft draft => store.settle ((store.saveDraft draft).map (.done, ·))
  | .addDraftAttachment conversation filename mimeType note content =>
    store.settle ((store.addDraftAttachment conversation filename mimeType note content).map
      fun (info, store') => (.attachment info, store'))
  | .commitDraft conversation address dateSent =>
    match store.commitDraft conversation address dateSent with
    | .ok (id, store') => (.ok (.message id), store')
    | .error (.refused e) => (.error (.refused (.store e)), store)
    | .error (.outOfNumbers left) => (.error .outOfNumbers, left)
  | .saveMessage message conversation =>
    (.ok (.message message.record.id), store.saveMessage message conversation)
  | .setFlags id read done => store.settle ((store.setFlags id read done).map (.done, ·))
  | .closeSink check payload =>
    match (attachmentSinks payload.message).sink.close ((check, payload), store) with
    | (.ok (), _, store') => (.ok .done, store')
    | (.error e, _, store') => (.error (.refused (.mail e)), store')

/-! ## One write after the other -/

/-- What is done to a store until the request is answered or ends without an answer. -/
abbrev Action := ExceptT Failure (StateM Store)

namespace Action

variable {α : Type}

def refuse (refusal : Refusal) : Action α := throw (.refused refusal)

/-- The number if there is one. -/
def demand : Option UInt64 → Action UInt64
  | some id => pure id
  | none => throw .outOfNumbers

/-- What reads the store goes on with it. -/
lemma get_bind (f : Store → Action α) (store : Store) : (get >>= f) store = f store store := rfl

/-- What changes the store goes on with the changed one. -/
lemma modify_bind (f : Store → Store) (x : Action α) (store : Store) :
    ((modify f : Action PUnit) >>= fun _ => x) store = x (f store) := rfl

/-- An answer leaves the store as it is. -/
lemma pure_apply (a : α) (store : Store) : (pure a : Action α) store = (.ok a, store) := rfl

end Action

open SealedMail.Store.Action in
/-- Carries out a request, one write after the other. -/
def Request.perform : Request → Action Answer
  | .addPrivateKey id key => do
    match (← get).privateKeys.get? (key.purpose, id) with
    | some _ => refuse (.store (.keyConflict key.purpose id))
    | none =>
      modify fun s => { s with privateKeys := s.privateKeys.put (key.purpose, id) key }
      return .done
  | .addPublicKey address id key => do
    match (← get).publicKeys.get? (address, key.purpose, id) with
    | some known =>
      if known = key then return .done else refuse (.store (.keyConflict key.purpose id))
    | none =>
      modify fun s => { s with publicKeys := s.publicKeys.put (address, key.purpose, id) key }
      return .done
  | .createConversation participants => do
    let conversation : Conversation := ⟨← demand (← get).conversations.nextId?, participants⟩
    modify fun s => { s with conversations := s.conversations.put conversation.id conversation }
    return .conversation conversation
  | .saveDraft draft => do
    match (← get).conversations.get? draft.conversation with
    | none => refuse (.store (.notFound (.conversation draft.conversation)))
    | some _ =>
      modify fun s => { s with drafts := s.drafts.put draft.conversation draft }
      return .done
  | .addDraftAttachment conversation filename mimeType note content => do
    if UInt32.size ≤ content.length then
      refuse (.store (.attachmentTooLarge content.length))
    else
      let list := (← get).draftAttachmentList conversation
      -- a conversation without payloads first gets an empty list
      modify fun s => { s with draftAttachments := s.draftAttachments.put conversation list }
      let info := describe list.length filename mimeType note content
      modify fun s =>
        { s with
          draftAttachments := s.draftAttachments.put conversation (list ++ [⟨info, content⟩]) }
      return .attachment info
  | .commitDraft conversation address dateSent => do
    let found := (← get).drafts.get? conversation
    modify fun s => { s with drafts := s.drafts.erase conversation }
    match found with
    | none => refuse (.store (.notFound (.draft conversation)))
    | some draft =>
      let attachments := (← get).draftAttachmentList conversation
      modify fun s => { s with draftAttachments := s.draftAttachments.erase conversation }
      let id ← demand (← get).messages.nextId?
      modify fun s => s.keepAvatar draft.senderAvatar
      let row : MessageRow := ⟨⟨id, conversation, dateSent, draft.text, draft.footer⟩,
        senderRow (Archive.draftSender address draft), none⟩
      modify fun s => { s with messages := s.messages.put id row }
      modify fun s => { s with attachments := s.attachments.put id attachments }
      return .message id
  | .saveMessage message conversation => do
    let record := message.record
    modify fun s => { s with conversations := s.conversations.putNew conversation.id conversation }
    modify fun s => s.keepAvatar message.sender.avatar
    let row : MessageRow := ⟨⟨record.id, conversation.id, record.dateSent, record.text,
      record.footer⟩, senderRow message.sender, some record⟩
    modify fun s => { s with messages := s.messages.put record.id row }
    let attachments := message.attachments.map fun info => ⟨info, []⟩
    modify fun s => { s with attachments := s.attachments.put record.id attachments }
    return .message record.id
  | .setFlags id read done => do
    match (← get).messages.get? id with
    | some ⟨message, sender, some record⟩ =>
      modify fun s =>
        { s with messages := s.messages.put id ⟨message, sender, some { record with read }⟩ }
      modify fun s =>
        { s with messages := s.messages.put id ⟨message, sender, some { record with read, done }⟩ }
      return .done
    | _ => refuse (.store (.notFound (.receivedMessage id)))
  | .closeSink check payload => do
    if check.isRight then
      match fillSlot payload.index payload.pieces.reverse.flatten
        ((← get).archive.attachments payload.message) with
      | some list =>
        modify fun s => { s with attachments := s.attachments.put payload.message list }
        return .done
      | none => refuse (.mail (.integrity (.missingMessage payload.message)))
    else refuse (.mail (.integrity (.hashMismatch check.index)))

open SealedMail.Store.Action in
/-- An operation gives what its writes give, also where it is refused. -/
theorem Request.perform_eq (request : Request) (store : Store) :
    request.perform store = store.outcome request := by
  cases request with
  | addPrivateKey id key =>
    rw [perform, outcome, Store.addPrivateKey, get_bind]
    cases store.privateKeys.get? (key.purpose, id) with
    | some known => rfl
    | none => rfl
  | addPublicKey address id key =>
    rw [perform, outcome, Store.addPublicKey, get_bind]
    cases store.publicKeys.get? (address, key.purpose, id) with
    | none => rfl
    | some known =>
      dsimp only
      split
      next => rfl
      next => rfl
  | createConversation participants =>
    rw [perform, outcome, Store.createConversation, get_bind]
    cases store.conversations.nextId? with
    | none => rfl
    | some id => rfl
  | saveDraft draft =>
    rw [perform, outcome, Store.saveDraft, get_bind]
    cases store.conversations.get? draft.conversation with
    | none => rfl
    | some conversation => rfl
  | addDraftAttachment conversation filename mimeType note content =>
    rw [perform, outcome, Store.addDraftAttachment]
    split
    next => rfl
    next =>
      rw [get_bind, modify_bind, modify_bind, pure_apply, Table.put_put]
      rfl
  | commitDraft conversation address dateSent =>
    rw [perform, outcome, Store.commitDraft, get_bind, modify_bind]
    cases found : store.drafts.get? conversation with
    | none =>
      rw [Table.erase_of_get? found]
      rfl
    | some draft =>
      -- both take the draft out before they ask for a number
      dsimp only [takeDraft]
      rw [get_bind, modify_bind, get_bind]
      dsimp only
      cases store.messages.nextId? with
      | none => rfl
      | some id => rfl
  | saveMessage message conversation => rfl
  | setFlags id read done =>
    rw [perform, outcome, Store.setFlags, get_bind]
    cases store.messages.get? id with
    | none => rfl
    | some row =>
      obtain ⟨message, sender, received⟩ := row
      cases received with
      | none => rfl
      | some record =>
        simp only [modify_bind, pure_apply, Table.put_put]
        rfl
  | closeSink check payload =>
    rw [perform, outcome, close_attachmentSinks, storePayload]
    cases check.isRight with
    | false => rfl
    | true =>
      rw [if_pos rfl, get_bind]
      cases fillSlot payload.index payload.pieces.reverse.flatten
        (store.archive.attachments payload.message) with
      | none => rfl
      | some list => rfl

/-! ## Requests that are refused -/

variable {store store' : Store} {request : Request} {refusal : Refusal}

/-- An operation that gives no store leaves the one that there was. -/
lemma settle_failed {result : Except StoreError (Answer × Store)} {failure : Failure}
    (h : store.settle result = (.error failure, store')) :
    store' = store ∧ failure ≠ .outOfNumbers := by
  cases result with
  | ok answered => cases h
  | error e =>
    cases h
    exact ⟨rfl, nofun⟩

/-- A request that is refused leaves the store as it was. -/
theorem Request.store_eq_of_refused
    (h : request.perform store = (.error (.refused refusal), store')) : store' = store := by
  rw [perform_eq] at h
  cases request with
  | createConversation participants =>
    rw [outcome] at h
    split at h
    next => cases h
    next => cases h
  | commitDraft conversation address dateSent =>
    rw [outcome] at h
    split at h
    next => cases h
    next =>
      cases h
      rfl
    next => cases h
  | saveMessage message conversation => cases h
  | closeSink check payload =>
    rw [outcome, close_attachmentSinks] at h
    cases right : check.isRight with
    | false =>
      rw [right] at h
      cases h
      rfl
    | true =>
      rw [right, if_pos rfl] at h
      cases stored : store.storePayload payload with
      | error e =>
        rw [stored] at h
        cases h
        rfl
      | ok later =>
        rw [stored] at h
        cases h
  | _ => exact (settle_failed h).1

/-- The request needs the number after the last one: it creates a conversation, or sends a draft. -/
def Request.Exceeds (store : Store) : Request → Prop
  | .createConversation _ => store.conversations.IsFull
  | .commitDraft conversation _ _ =>
    (∃ draft, store.draft conversation = some draft) ∧ store.messages.IsFull
  | _ => False

/-- The store that is left by a request that stops: without the draft that was to be sent. -/
def leftBy (store : Store) : Request → Store
  | .commitDraft conversation _ _ => store.takeDraft conversation
  | _ => store

/-- A request stops exactly if it needs the number after the last one. -/
theorem Request.outOfNumbers_iff :
    request.perform store = (.error .outOfNumbers, store') ↔
      request.Exceeds store ∧ store' = store.leftBy request := by
  rw [perform_eq]
  cases request with
  | createConversation participants =>
    change _ ↔ store.conversations.IsFull ∧ store' = store
    rw [outcome, ← createConversation_eq_none]
    cases store.createConversation participants with
    | none => exact ⟨fun h => ⟨rfl, (congrArg Prod.snd h).symm⟩, fun ⟨_, same⟩ => same ▸ rfl⟩
    | some created => exact ⟨nofun, fun ⟨full, _⟩ => nomatch full⟩
  | commitDraft conversation address dateSent =>
    rw [outcome, Exceeds, leftBy, and_assoc, ← commitDraft_eq_outOfNumbers]
    cases store.commitDraft conversation address dateSent with
    | ok sent => exact ⟨nofun, nofun⟩
    | error failure =>
      cases failure with
      | refused e => exact ⟨nofun, nofun⟩
      | outOfNumbers left =>
        exact ⟨fun h => congrArg _ (congrArg _ (congrArg Prod.snd h)), fun h => by cases h; rfl⟩
  | saveMessage message conversation => exact ⟨nofun, nofun⟩
  | closeSink check payload =>
    rw [outcome]
    split
    next => exact ⟨nofun, nofun⟩
    next => exact ⟨nofun, nofun⟩
  | _ => exact ⟨fun h => absurd rfl (settle_failed h).2, nofun⟩

/-- A request without an answer leaves the store as its result tells. -/
lemma settle_done (result : Except StoreError Store) :
    (store.settle (result.map (.done, ·))).2 = result.toOption.getD store := by
  cases result with
  | ok store' => rfl
  | error e => rfl

/-- A request with an answer leaves the store as its result tells. -/
lemma settle_answer {α : Type} (result : Except StoreError (α × Store)) (answer : α → Answer) :
    (store.settle (result.map fun (a, store') => (answer a, store'))).2 =
      (result.map Prod.snd).toOption.getD store := by
  cases result with
  | ok answered => rfl
  | error e => rfl

/-- The store after a request is the one that is left when the request was carried out. -/
theorem Request.after_eq (request : Request) (store : Store) :
    store.after request = (request.perform store).2 := by
  rw [perform_eq]
  cases request with
  | createConversation participants =>
    rw [after, outcome]
    cases store.createConversation participants with
    | none => rfl
    | some created => rfl
  | addDraftAttachment conversation filename mimeType note content =>
    exact (settle_answer _ _).symm
  | commitDraft conversation address dateSent =>
    rw [after, outcome]
    cases store.commitDraft conversation address dateSent with
    | ok sent => rfl
    | error failure =>
      cases failure with
      | refused e => rfl
      | outOfNumbers left => rfl
  | saveMessage message conversation => rfl
  | closeSink check payload =>
    rw [after, outcome]
    split
    next closed => rw [closed]
    next closed => rw [closed]
  | _ => exact (settle_done _).symm

end Store

end SealedMail
