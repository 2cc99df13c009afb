import SealedMail.Proofs.Decoding
import SealedMail.Proofs.Store.Conversations

/-!
# Messages that are kept

A message that a store holds stays in it, with its sender and its attachments, whatever requests
come about other messages (`Store.Holds`, `Step.holds`, `Holds.afterAll`). So what was sent is still
there (`sent_message_kept`). Only a message that was received under the same number takes its place
(`received_message_replaces_sent`): a number of the account's own is above all that are taken, and
when there is none left no message is sent any more; one that comes with a message is not looked at.
-/

namespace SealedMail.Store

variable {store store' : Store} {request : Request} {row : SenderRow} {sender : Sender}
  {message : StoredMessage} {attachments : List Attachment}

/-! ## Senders -/

/-- The row stands for the sender, whose picture the store has. -/
structure Shows (store : Store) (row : SenderRow) (sender : Sender) : Prop where
  sender : store.sender row = sender
  picture : ∀ n ∈ row.avatar, ∃ avatar, store.avatars.get? n = some avatar

/-- A sender is shown as long as no picture is lost. -/
lemma Shows.of_grows (shows : store.Shows row sender) (grows : store.avatars.Grows store'.avatars) :
    store'.Shows row sender := by
  obtain ⟨address, name, organization, n⟩ := row
  cases n with
  | none => exact ⟨shows.sender, nofun⟩
  | some n =>
    obtain ⟨avatar, found⟩ := shows.picture n rfl
    have found' := grows n avatar found
    refine ⟨?_, ?_⟩
    · rw [← shows.sender, Store.sender, Store.sender, Option.bind_some, Option.bind_some, found,
        found']
    · rintro _ ⟨⟩
      exact ⟨avatar, found'⟩

/-- The picture that the store has under the number of a picture, once it was kept. -/
def keptAvatar (store : Store) (avatar : Avatar) : Avatar :=
  (store.avatars.get? (avatarId avatar)).getD avatar

def keptSender (store : Store) (sender : Sender) : Sender :=
  { sender with avatar := sender.avatar.map store.keptAvatar }

/-- The picture that the store has is the given one, if the image tells it from all others there. -/
lemma keptAvatar_eq (consistent : store.Consistent) {avatar : Avatar}
    (distinct : ∀ n kept, store.avatars.get? n = some kept → avatarId kept = avatarId avatar →
      kept.data = avatar.data)
    (typed : ∀ n kept, store.avatars.get? n = some kept → kept.data = avatar.data →
      kept.mimeType = avatar.mimeType) :
    store.keptAvatar avatar = avatar := by
  rw [keptAvatar]
  cases found : store.avatars.get? (avatarId avatar) with
  | none => rfl
  | some kept =>
    have data := distinct _ kept found (consistent.avatars _ kept found)
    have mimeType := typed _ kept found data
    obtain ⟨_, _⟩ := kept
    cases data
    cases mimeType
    rfl

/-- A sender is kept as he is, if no other picture has the same number, and none the same data with
another type. -/
lemma keptSender_eq (consistent : store.Consistent) {sender : Sender}
    (distinct : ∀ avatar ∈ sender.avatar, ∀ n kept, store.avatars.get? n = some kept →
      avatarId kept = avatarId avatar → kept.data = avatar.data)
    (typed : ∀ avatar ∈ sender.avatar, ∀ n kept, store.avatars.get? n = some kept →
      kept.data = avatar.data → kept.mimeType = avatar.mimeType) :
    store.keptSender sender = sender := by
  obtain ⟨_, _, _, avatar⟩ := sender
  cases avatar with
  | none => rfl
  | some avatar =>
    rw [keptSender, Option.map_some,
      keptAvatar_eq consistent (distinct avatar rfl) (typed avatar rfl)]

/-- The sender that was kept is shown. -/
lemma shows_senderRow (store : Store) (sender : Sender)
    (later : store'.avatars = withAvatar store.avatars sender.avatar) :
    store'.Shows (senderRow sender) (store.keptSender sender) := by
  obtain ⟨address, name, organization, avatar⟩ := sender
  cases avatar with
  | none => exact ⟨rfl, nofun⟩
  | some avatar =>
    have found : store'.avatars.get? (avatarId avatar) = some (store.keptAvatar avatar) := by
      rw [later, withAvatar, Table.get?_putNew, if_pos rfl, keptAvatar]
    refine ⟨?_, ?_⟩
    · rw [Store.sender, senderRow, Option.map_some, Option.bind_some, found]
      rfl
    · rintro _ ⟨⟩
      exact ⟨_, found⟩

/-! ## Messages -/

/-- The store has the message under its number, from the sender and with these attachments. -/
structure Holds (store : Store) (message : StoredMessage) (sender : Sender)
    (attachments : List Attachment) : Prop where
  row : ∃ row received,
    store.messages.get? message.id = some ⟨message, row, received⟩ ∧ store.Shows row sender
  attachments : store.attachments.get? message.id = some attachments

/-- A message that is held is found with its sender and its attachments. -/
lemma Holds.archive (holds : store.Holds message sender attachments) :
    store.archive.message message.id = some message ∧
      store.archive.sender message.id = some sender ∧
      store.archive.attachments message.id = attachments := by
  obtain ⟨⟨row, received, found, shows⟩, kept⟩ := holds
  refine ⟨?_, ?_, ?_⟩
  · rw [archive_message, found, Option.map_some]
  · rw [archive_sender, found, Option.map_some, shows.sender]
  · rw [archive_attachments, kept, Option.getD_some]

/-- A message that is held is encoded from what is held. -/
lemma Holds.encodeStored (holds : store.Holds message sender attachments) :
    store.archive.encodeStored message.id =
      store.archive.encode message.conversation sender message.dateSent message.text message.footer
        attachments := by
  obtain ⟨found, sent, kept⟩ := holds.archive
  rw [Archive.encodeStored, found, sent, kept]
  rfl

/-- A message that is kept is held. -/
lemma holds_keepMessage (store : Store) (message : StoredMessage) (sender : Sender)
    (received : Option MessageRecord) (attachments : List Attachment) :
    (store.keepMessage message sender received attachments).Holds message
      (store.keptSender sender) attachments := by
  rw [keepMessage_eq]
  refine ⟨⟨senderRow sender, received, ?_, shows_senderRow store sender rfl⟩, ?_⟩
  · rw [Table.get?_put, if_pos rfl]
  · rw [Table.get?_put, if_pos rfl]

/-- A message that is saved is held, with empty attachments. -/
lemma holds_saveMessage (store : Store) (message : DecodedMessage) (conversation : Conversation) :
    (store.saveMessage message conversation).Holds
      ⟨message.record.id, conversation.id, message.record.dateSent, message.record.text,
        message.record.footer⟩
      (store.keptSender message.sender) (message.attachments.map fun info => ⟨info, []⟩) :=
  holds_keepMessage _ _ _ _ _

/-! ## Requests about other messages -/

/-- The request is not about the message with this number. -/
def Request.Spares (id : UInt64) : Request → Prop
  | .saveMessage message _ => message.record.id ≠ id
  | .closeSink _ payload => payload.message ≠ id
  | _ => True

/-- A request that spares a message leaves its row and its attachments as they are, or marks the
row. Committing a draft always leaves them: its number is above all that are taken. -/
lemma Step.row_cases {id : UInt64} {row : MessageRow} (step : Step store request store')
    (spares : request.Spares id) (found : store.messages.get? id = some row) :
    store'.attachments.get? id = store.attachments.get? id ∧
      (store'.messages.get? id = some row ∨
        ∃ read done received, request = .setFlags id read done ∧
          store'.messages.get? id = some { row with received }) := by
  cases step with
  | @commitDraft _ _ _ _ given _ next =>
    have other : id ≠ given := UInt64.ne_of_lt (Table.lt_of_nextId? next found)
    rw [keepMessage_eq, Table.get?_put, if_neg other, Table.get?_put, if_neg other]
    exact ⟨rfl, .inl found⟩
  | saveMessage =>
    have other := Ne.symm spares
    rw [Store.saveMessage, keepMessage_eq, Table.get?_put, if_neg other, Table.get?_put,
      if_neg other]
    exact ⟨rfl, .inl found⟩
  | @setFlags marked read done message sender record there =>
    by_cases same : id = marked
    · subst same
      rw [found, Option.some.injEq] at there
      subst there
      refine ⟨rfl, .inr ⟨read, done, some { record with read, done }, rfl, ?_⟩⟩
      rw [Table.get?_put, if_pos rfl]
    · rw [Table.get?_put, if_neg same]
      exact ⟨rfl, .inl found⟩
  | closeSink =>
    rw [Table.get?_put, if_neg (Ne.symm spares)]
    exact ⟨rfl, .inl found⟩
  | _ => exact ⟨rfl, .inl found⟩

/-- A request that spares a message leaves it in the store. -/
theorem Step.holds (step : Step store request store') (spares : request.Spares message.id)
    (holds : store.Holds message sender attachments) : store'.Holds message sender attachments := by
  obtain ⟨⟨row, received, found, shows⟩, kept⟩ := holds
  have shows' := shows.of_grows step.avatars_grow
  obtain ⟨attachments', row' | ⟨_, _, received', _, row'⟩⟩ := step.row_cases spares found
  · exact ⟨⟨row, received, row', shows'⟩, attachments'.trans kept⟩
  · exact ⟨⟨row, received', row', shows'⟩, attachments'.trans kept⟩

/-- A message is held, whatever is asked that leaves it in place. -/
theorem Holds.afterAll {requests : List Request} (holds : store.Holds message sender attachments)
    (others : ∀ request ∈ requests, request.Spares message.id) :
    (store.afterAll requests).Holds message sender attachments := by
  induction requests generalizing store with
  | nil => exact holds
  | cons request rest ih =>
    obtain ⟨first, later⟩ := List.forall_mem_cons.mp others
    exact ih ((step_after store request).holds first holds) later

/-! ## Messages that were sent -/

/-- A draft that was sent is held as a message. -/
lemma holds_of_commitDraft {conversation id : UInt64} {address : Address} {dateSent : DateTime}
    {draft : Draft} (saved : store.draft conversation = some draft)
    (committed : store.commitDraft conversation address dateSent = .ok (id, store')) :
    store'.Holds ⟨id, conversation, dateSent, draft.text, draft.footer⟩
      (store.keptSender (Archive.draftSender address draft))
      (store.draftAttachmentList conversation) := by
  obtain ⟨draft', found, _, rfl⟩ := of_commitDraft committed
  rw [saved] at found
  cases found
  exact holds_keepMessage _ _ _ _ _

/-- A message that is sent later has a number above that of a message that is there. -/
lemma Holds.lt_of_commitDraft (holds : store.Holds message sender attachments)
    {conversation id : UInt64} {address : Address} {dateSent : DateTime}
    (committed : store.commitDraft conversation address dateSent = .ok (id, store')) :
    message.id < id := by
  obtain ⟨⟨row, received, found, _⟩, _⟩ := holds
  obtain ⟨_, _, next, _⟩ := of_commitDraft committed
  exact Table.lt_of_nextId? next found

/-- Sending a message leaves the conversations alone. -/
lemma conversations_of_commitDraft {conversation id : UInt64} {address : Address}
    {dateSent : DateTime}
    (committed : store.commitDraft conversation address dateSent = .ok (id, store')) :
    store'.conversations = store.conversations := by
  obtain ⟨_, _, _, rfl⟩ := of_commitDraft committed
  rw [keepMessage_eq]
  rfl

/-- What was sent is not lost. However a store came to be, and whatever is asked of it after a draft
was committed, the message with the number that it got is the text of the draft, from its sender and
with its attachments, as long as no message is received under this number. Also when a number of 64
bits is received that none comes after, this message keeps its own, since all that are given out
later are above it. -/
theorem sent_message_kept {conversation id : UInt64} {address : Address} {dateSent : DateTime}
    {draft : Draft} (saved : store.draft conversation = some draft)
    (committed : store.commitDraft conversation address dateSent = .ok (id, store'))
    {requests : List Request} (others : ∀ request ∈ requests, request.Spares id) :
    (store'.afterAll requests).archive.message id =
        some ⟨id, conversation, dateSent, draft.text, draft.footer⟩ ∧
      (store'.afterAll requests).archive.sender id =
        some (store.keptSender (Archive.draftSender address draft)) ∧
      (store'.afterAll requests).archive.attachments id =
        store.draftAttachmentList conversation ∧
      ∀ {conversation' address' dateSent' id' later},
        (store'.afterAll requests).commitDraft conversation' address' dateSent' =
          .ok (id', later) → id < id' := by
  have holds := (holds_of_commitDraft saved committed).afterAll others
  obtain ⟨message, sender, attachments⟩ := holds.archive
  exact ⟨message, sender, attachments, holds.lt_of_commitDraft⟩

/-- A message with the last number of all comes in. Then Ann writes once more, and her draft is lost
when she sends it, but what she sent before is not. -/
theorem sent_message_kept_of_other :
    let ann : Address := ⟨"ann", "example.org", by decide, by decide⟩
    let bob : Address := ⟨"bob", "example.org", by decide, by decide⟩
    let date : DateTime := ⟨⟨2024, 2, 29, 12, 30, 0, 0, 60⟩, by decide⟩
    let draft : Draft := ⟨1, "Ann", "", none, "Hello", "Bye"⟩
    let received : DecodedMessage := ⟨
      ⟨18446744073709551615, 0, date, date, bob, "Hi", "", ⟨List.replicate 32 0⟩, 1, false, false, 4⟩,
      ⟨bob, "Bob", "", none⟩, .ofList [bob], [], []⟩
    let store := Store.empty.afterAll [.createConversation (.ofList [bob]), .saveDraft draft,
      .addDraftAttachment 1 "a.txt" "text/plain" "" [1, 2]]
    ∃ store' full later : Store, store.commitDraft 1 ann date = .ok (1, store') ∧
      full = store'.afterAll [.saveMessage received ⟨1, .ofList [bob]⟩, .saveDraft draft] ∧
      full.draft 1 = some draft ∧
      later = full.after (.commitDraft 1 ann date) ∧
      later.draft 1 = none ∧
      later.archive.message 1 = some ⟨1, 1, date, "Hello", "Bye"⟩ ∧
      later.archive.sender 1 = some ⟨ann, "Ann", "", none⟩ ∧
      later.archive.attachments 1 =
        [⟨describe 0 "a.txt" "text/plain" "" [1, 2], [1, 2]⟩] := by
  intro ann bob date draft received store
  have saved : store.draft 1 = some draft := rfl
  have next : store.messages.nextId? = some 1 := rfl
  obtain ⟨store', committed⟩ := exists_commitDraft saved next ann date
  have others : ∀ request ∈ [Request.saveMessage received ⟨1, .ofList [bob]⟩, .saveDraft draft,
      .commitDraft 1 ann date], request.Spares 1 := by
    refine List.forall_mem_cons.mpr ⟨show (18446744073709551615 : UInt64) ≠ 1 by decide, ?_⟩
    exact List.forall_mem_cons.mpr ⟨trivial, List.forall_mem_singleton.mpr trivial⟩
  obtain ⟨message, sender, attachments, _⟩ := sent_message_kept saved committed others
  obtain ⟨draft', found, _, stored⟩ := of_commitDraft committed
  cases saved.symm.trans found
  refine ⟨store', _, _, committed, rfl, ?_, rfl, ?_, message, sender, attachments⟩
  · rw [stored]
    rfl
  · rw [stored]
    rfl

/-- A message that was received under the number of one that was sent takes its place. Ann writes to
Bob, and the message gets the number 1. Then a message from Carol comes in, under the number 1 as
well: the text, the sender and the attachments of what Ann wrote are gone. -/
theorem received_message_replaces_sent :
    let ann : Address := ⟨"ann", "example.org", by decide, by decide⟩
    let bob : Address := ⟨"bob", "example.org", by decide, by decide⟩
    let carol : Address := ⟨"carol", "example.org", by decide, by decide⟩
    let date : DateTime := ⟨⟨2024, 2, 29, 12, 30, 0, 0, 60⟩, by decide⟩
    let body : Body := ⟨⟨carol, "Carol", "", none⟩, .ofList [ann], date, "Hi", "", []⟩
    let opened : OpenedMessage := ⟨1, 0, date, ⟨List.replicate 32 0⟩, ⟨4, [], body.toBytes⟩,
      ⟨[], ⟨List.replicate 32 0⟩⟩⟩
    let decoded : DecodedMessage := ⟨
      opened.record (body.receivedBy ann) ⟨MessageState.latestVersion, false, false, []⟩,
      body.sender, body.participantsFor ann, [], []⟩
    let store := Store.empty.afterAll [.createConversation (.ofList [bob]),
      .saveDraft ⟨1, "Ann", "", none, "Hello", "Bye"⟩,
      .addDraftAttachment 1 "a.txt" "text/plain" "" [1, 2]]
    ∃ store' conversation store'',
      store.commitDraft 1 ann date = .ok (1, store') ∧
      opened.decode ann .none false store'.directory = .ok decoded ∧
      store'.conversationOf decoded.participants = some (conversation, store'') ∧
      let later := store''.after (.saveMessage decoded conversation)
      later.archive.message 1 ≠ store'.archive.message 1 ∧
      later.archive.sender 1 ≠ store'.archive.sender 1 ∧
      later.archive.attachments 1 ≠ store'.archive.attachments 1 := by
  intro ann bob carol date body opened decoded store
  have saved : store.draft 1 = some ⟨1, "Ann", "", none, "Hello", "Bye"⟩ := rfl
  have next : store.messages.nextId? = some 1 := rfl
  obtain ⟨store', committed⟩ := exists_commitDraft saved next ann date
  have readable : body.IsReadable :=
    ⟨by decide, ⟨ann, .head _⟩, by decide, List.forall_mem_nil _, by decide⟩
  have data : opened.content.data = body.toBytes := by dsimp only [opened]
  have other : carol ≠ ann := by decide
  have read : opened.decode ann .none false store'.directory = .ok decoded :=
    opened.decode_toBytes data readable (if_neg other) _
  have free : store'.conversations.nextId? = some 2 := by
    rw [conversations_of_commitDraft committed]
    rfl
  obtain ⟨conversation, store'', resolved⟩ := exists_conversationOf free decoded.participants
  refine ⟨store', conversation, store'', committed, read, resolved, ?_⟩
  obtain ⟨message, sender, attachments⟩ := (holds_of_commitDraft saved committed).archive
  obtain ⟨message', sender', attachments'⟩ :=
    (holds_saveMessage store'' decoded conversation).archive
  refine ⟨fun same => ?_, fun same => ?_, fun same => ?_⟩
  · have text := congrArg (Option.map StoredMessage.text) (message'.symm.trans (same.trans message))
    exact absurd (Option.some.inj text) (show "Hi" ≠ "Hello" by decide)
  · have name := congrArg (Option.map Sender.name) (sender'.symm.trans (same.trans sender))
    exact absurd (Option.some.inj name) (show "Carol" ≠ "Ann" by decide)
  · have length := congrArg List.length (attachments'.symm.trans (same.trans attachments))
    exact absurd length (show 0 ≠ 1 by decide)

end SealedMail.Store
