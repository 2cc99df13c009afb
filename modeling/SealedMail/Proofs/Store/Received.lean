import SealedMail.Proofs.Attachment.RoundTrip
import SealedMail.Proofs.Reading
import SealedMail.Proofs.Store.Conversations
import SealedMail.Proofs.Store.Delivery

/-!
# Received messages

A message that was received is kept in the conversation of those who take part besides the account
itself, and its attachments come later. Encoded once more it has everything that was read of it, and
the stream of its attachments (`encodeStored_of_received`). But its recipients are now the members
of the conversation. For a message of the account's own these are the recipients that it had, and it
is read as before. For a message from someone else the sender is one of them, and it is refused:
`received_encoded_again` says both.
-/

namespace SealedMail.Store

variable {store store' : Store} {conversation : Conversation} {id : UInt64}

/-! ## Messages that were received -/

variable {store₁ store₂ : Store} {decoded : DecodedMessage} {pieces : List Bytes}
  {earlier between later : List Request}

/-- A message that was received into its conversation, and whose attachments were delivered, is
encoded with what was read of it: to the members of the conversation, and with the stream that was
delivered. -/
lemma encodeStored_of_received {received : ReceivedBody} {own : Address}
    (wellFormed : received.WellFormed own)
    (found : store.conversations.get? conversation.id = some conversation)
    (members : conversation.participants = received.participants)
    (holds : store.Holds ⟨id, conversation.id, received.dateSent, received.text, received.footer⟩
      received.sender (received.attachments.map fun info => ⟨info, []⟩))
    (delivered : Splitter.run (attachmentSinks id) (received.attachments.map AttachmentInfo.slot)
      pieces store = (none, store'))
    (others : ∀ request ∈ later, request.Spares id) :
    (store'.afterAll later).archive.encodeStored id =
      .ok ⟨received.toBody.toBytes, pieces.flatten⟩ := by
  obtain ⟨filled, described, whole, sizes, holds', same⟩ :=
    holds.of_run wellFormed.numbered wellFormed.few delivered
  have found' : (store'.afterAll later).conversations.get? conversation.id = some conversation :=
    conversations_grow_afterAll _ _ _ _ (same ▸ found)
  have body : received.toBody = ⟨received.sender, conversation.participants, received.dateSent,
      received.text, received.footer, filled.map Attachment.info⟩ := by
    rw [described, members, ReceivedBody.toBody]
  rw [body, ← whole]
  exact (holds'.afterAll others).encodeStored.trans
    (Archive.encode_eq_ok.mpr ⟨conversation, found', sizes, rfl⟩)

/-- A message that was received is encoded again, and read by the account that received it. Let the
message be decoded, be given its conversation, be saved there at some time later, and let its
attachments be delivered, while all kinds of requests come to the store, answered or not, of which
those after saving are about other messages. Let no picture in the store take the place of the
picture of the sender. Then the message is encoded, with the stream that was delivered. If the
account itself is the sender, it reads exactly what it read before; if someone else is, it is told
that the sender is among the recipients. -/
theorem received_encoded_again (reachable : store.Reachable) {opened : OpenedMessage}
    {own : Address} {expand : Bytes → Except MailError Bytes} {verify : Bool} {keys : Directory}
    (read : opened.decodeWith own expand verify keys = .ok decoded)
    (resolved : store.conversationOf decoded.participants = some (conversation, store₁))
    (others : ∀ request ∈ between ++ later, request.Spares decoded.record.id)
    (delivered : Splitter.run (attachmentSinks decoded.record.id)
      (decoded.attachments.map AttachmentInfo.slot) pieces
      (((store₁.afterAll earlier).saveMessage decoded conversation).afterAll between) =
        (none, store₂))
    (distinct : ∀ avatar ∈ decoded.sender.avatar, ∀ n kept,
      (store₁.afterAll earlier).avatars.get? n = some kept → avatarId kept = avatarId avatar →
        kept.data = avatar.data)
    (typed : ∀ avatar ∈ decoded.sender.avatar, ∀ n kept,
      (store₁.afterAll earlier).avatars.get? n = some kept → kept.data = avatar.data →
        kept.mimeType = avatar.mimeType) :
    ∃ content,
      (store₂.afterAll later).archive.encodeStored decoded.record.id =
        .ok ⟨content, pieces.flatten⟩ ∧
      (decoded.sender.address = own →
        ReceivedBody.ofBytes own content =
          .ok ⟨decoded.sender, decoded.participants, decoded.record.dateSent, decoded.record.text,
            decoded.record.footer, decoded.attachments⟩) ∧
      (decoded.sender.address ≠ own →
        ReceivedBody.ofBytes own content = ReceivedBody.fault .recipientsContainSender) := by
  obtain ⟨_, _, body⟩ := bind_eq_ok.mp (OpenedMessage.body_of_decodeWith read).1
  have wellFormed := ReceivedBody.wellFormed_of_ofBytes body
  obtain ⟨members, found, _⟩ := isFirst_of_conversationOf reachable.consistent resolved
  have consistent := ((reachable.conversationOf resolved).afterAll earlier).consistent
  obtain ⟨others, others'⟩ := List.forall_mem_append.mp others
  -- the message is in the store when it was saved, and still when its attachments come
  have holds := (holds_saveMessage (store₁.afterAll earlier) decoded conversation).afterAll others
  rw [keptSender_eq consistent distinct typed] at holds
  have found' := conversations_grow_afterAll _ between _ _
    ((step_after _ (.saveMessage decoded conversation)).conversations_grow _ _
      (conversations_grow_afterAll store₁ earlier _ _ found))
  refine ⟨_, encodeStored_of_received wellFormed found' members holds delivered others', ?_, ?_⟩
  · exact wellFormed.ofBytes_toBody
  · exact wellFormed.ofBytes_toBody_ne

/-- A description of a file is one that a reader accepts, if it has a name and a type. -/
lemma isReadable_describe (position : Nat) {filename mimeType : String} (named : filename ≠ "")
    (typed : mimeType ≠ "") (note : String) (content : Bytes) :
    (describe position filename mimeType note content).IsReadable := by
  have digest : Sha512.digest content ≠ [] := by
    intro none
    have length := Sha512.length_digest content
    rw [none] at length
    cases length
  exact ⟨named, typed, Hex.encode_ne_empty digest, fun c mem => Hex.isDigit_of_mem_encode mem⟩

/-- A file of no bytes is delivered without any. -/
lemma run_empty_file {message : StoredMessage} {sender : Sender} {info : AttachmentInfo}
    (holds : store.Holds message sender [⟨info, []⟩]) (named : info.slot.Names [])
    (empty : info.size = 0) :
    ∃ store', Splitter.run (attachmentSinks message.id) [info.slot] [] store = (none, store') := by
  have right : (DigestCheck.start info.slot).isRight = true :=
    (SinkFactory.Checks.isRight_iff
      ⟨rfl, rfl, Digest.Hasher.took_start Sha512.blockSize_pos⟩).mpr named
  obtain ⟨store', stored⟩ :
      ∃ store', store.storePayload ⟨message.id, info.index, []⟩ = .ok store' := by
    rw [storePayload, holds.archive.2.2, fillSlot, if_pos rfl]
    exact ⟨_, rfl⟩
  have closed := close_attachmentSinks message.id (.start info.slot)
    ⟨message.id, info.index, []⟩ store
  rw [if_pos right, stored] at closed
  have started : Splitter.start (attachmentSinks message.id) [info.slot] store =
      (.ok ⟨[], some (.start info.slot, ⟨message.id, info.index, []⟩), info.size.toNat⟩, store) :=
    rfl
  have settled : Splitter.settle (attachmentSinks message.id) []
      (.start info.slot, ⟨message.id, info.index, []⟩) store = (.ok true, store') := by
    rw [Splitter.settle, Splitter.closeSink, closed]
  have ended : Splitter.close (attachmentSinks message.id)
      ⟨[], some (.start info.slot, ⟨message.id, info.index, []⟩), 0⟩ store = (.ok (), store') := by
    rw [Splitter.close]
    exact MailM.bind_ok settled
  refine ⟨store', ?_⟩
  rw [empty, UInt32.toNat_zero] at started
  simp only [Splitter.run, started, Splitter.writeAll, ended]

/-- Ann wrote to Bob and reads her own message, which has an empty file. Then she writes again. -/
theorem received_encoded_again_by_sender :
    let ann : Address := ⟨"ann", "example.org", by decide, by decide⟩
    let bob : Address := ⟨"bob", "example.org", by decide, by decide⟩
    let date : DateTime := ⟨⟨2024, 2, 29, 12, 30, 0, 0, 60⟩, by decide⟩
    let file := describe 0 "a.txt" "text/plain" "" []
    let body : Body :=
      ⟨⟨ann, "Ann", "", some ⟨"image/png", [1, 2]⟩⟩, .ofList [bob], date, "Hello", "Bye", [file]⟩
    let opened : OpenedMessage := ⟨7, 0, date, ⟨List.replicate 32 0⟩, ⟨4, [], body.toBytes⟩,
      ⟨[], ⟨List.replicate 32 0⟩⟩⟩
    let decoded : DecodedMessage := ⟨opened.record (body.receivedBy ann) .selfSent, body.sender,
      body.participantsFor ann, [file], []⟩
    let later : List Request := [.saveDraft ⟨1, "Ann", "", none, "Hi", ""⟩, .commitDraft 1 ann date]
    ∃ conversation store₁ store₂ content,
      opened.decode ann .none false (directory .empty) = .ok decoded ∧
      Store.empty.conversationOf decoded.participants = some (conversation, store₁) ∧
      Splitter.run (attachmentSinks 7) [file.slot] [] (store₁.saveMessage decoded conversation) =
        (none, store₂) ∧
      (store₂.afterAll later).archive.encodeStored 7 = .ok ⟨content, []⟩ ∧
      ReceivedBody.ofBytes ann content =
        .ok ⟨body.sender, body.participantsFor ann, date, "Hello", "Bye", [file]⟩ := by
  intro ann bob date file body opened decoded later
  have described : file.IsReadable := isReadable_describe 0 (by decide) (by decide) "" []
  have readable : body.IsReadable :=
    ⟨by decide, ⟨bob, .head _⟩, by decide, List.forall_mem_singleton.mpr described, by decide⟩
  have data : opened.content.data = body.toBytes := by dsimp only [opened]
  have read : opened.decode ann .none false (directory .empty) = .ok decoded :=
    opened.decode_toBytes data readable (if_pos rfl) _
  obtain ⟨conversation, store₁, resolved⟩ : ∃ conversation store₁,
      Store.empty.conversationOf decoded.participants = some (conversation, store₁) :=
    ⟨_, _, conversationOf_empty _⟩
  have avatars : store₁.avatars = .empty := by
    rw [avatars_conversationOf resolved]
    rfl
  have fresh : ∀ n kept, (store₁.afterAll []).avatars.get? n ≠ some kept := by
    intro n kept found
    rw [afterAll, List.foldl_nil, avatars] at found
    cases found
  have others : ∀ request ∈ [] ++ later, request.Spares decoded.record.id :=
    List.forall_mem_cons.mpr ⟨trivial, List.forall_mem_singleton.mpr trivial⟩
  have holds : (store₁.saveMessage decoded conversation).Holds
      ⟨7, conversation.id, date, "Hello", "Bye"⟩ (store₁.keptSender decoded.sender) [⟨file, []⟩] :=
    holds_saveMessage store₁ decoded conversation
  obtain ⟨store₂, delivered⟩ := run_empty_file holds (names_slot_describe 0 _ _ _ []) rfl
  have delivered' : Splitter.run (attachmentSinks decoded.record.id)
      (decoded.attachments.map AttachmentInfo.slot) []
      (((store₁.afterAll []).saveMessage decoded conversation).afterAll []) = (none, store₂) :=
    delivered
  obtain ⟨content, written, again, _⟩ := received_encoded_again .empty read resolved others
    delivered' (fun _ _ n kept found => absurd found (fresh n kept))
    (fun _ _ n kept found => absurd found (fresh n kept))
  exact ⟨conversation, store₁, store₂, content, read, resolved, delivered, written, again rfl⟩

/-- What others sent is not read once more. Bob reads what Ann wrote to him, and keeps it in his
conversation with her. Encoded from there it goes to her, who is its sender. -/
theorem received_encoded_to_sender :
    let ann : Address := ⟨"ann", "example.org", by decide, by decide⟩
    let bob : Address := ⟨"bob", "example.org", by decide, by decide⟩
    let date : DateTime := ⟨⟨2024, 2, 29, 12, 30, 0, 0, 60⟩, by decide⟩
    let body : Body := ⟨⟨ann, "Ann", "", none⟩, .ofList [bob], date, "Hello", "Bye", []⟩
    let opened : OpenedMessage := ⟨7, 0, date, ⟨List.replicate 32 0⟩, ⟨4, [], body.toBytes⟩,
      ⟨[], ⟨List.replicate 32 0⟩⟩⟩
    let decoded : DecodedMessage := ⟨
      opened.record (body.receivedBy bob) ⟨MessageState.latestVersion, false, false, []⟩,
      body.sender, body.participantsFor bob, [], []⟩
    ∃ conversation store₁ store₂ content,
      opened.decode bob .none false (directory .empty) = .ok decoded ∧
      Store.empty.conversationOf decoded.participants = some (conversation, store₁) ∧
      Splitter.run (attachmentSinks 7) [] [] (store₁.saveMessage decoded conversation) =
        (none, store₂) ∧
      store₂.archive.encodeStored 7 = .ok ⟨content, []⟩ ∧
      ReceivedBody.ofBytes bob content = ReceivedBody.fault .recipientsContainSender := by
  intro ann bob date body opened decoded
  have readable : body.IsReadable :=
    ⟨by decide, ⟨bob, .head _⟩, by decide, List.forall_mem_nil _, by decide⟩
  have data : opened.content.data = body.toBytes := by dsimp only [opened]
  have other : ann ≠ bob := by decide
  have read : opened.decode bob .none false (directory .empty) = .ok decoded :=
    opened.decode_toBytes data readable (if_neg other) _
  obtain ⟨conversation, store₁, resolved⟩ : ∃ conversation store₁,
      Store.empty.conversationOf decoded.participants = some (conversation, store₁) :=
    ⟨_, _, conversationOf_empty _⟩
  have wellFormed : (body.receivedBy bob).WellFormed bob :=
    ReceivedBody.wellFormed_of_ofBytes (ReceivedBody.ofBytes_toBytes.mpr ⟨readable, rfl⟩)
  obtain ⟨members, found, _⟩ := isFirst_of_conversationOf Reachable.empty.consistent resolved
  have found' :=
    (step_after store₁ (.saveMessage decoded conversation)).conversations_grow _ _ found
  have holds : (store₁.saveMessage decoded conversation).Holds
      ⟨7, conversation.id, date, "Hello", "Bye"⟩ body.sender [] :=
    holds_saveMessage store₁ decoded conversation
  have delivered : Splitter.run (attachmentSinks 7) [] []
      (store₁.saveMessage decoded conversation) =
        (none, store₁.saveMessage decoded conversation) := rfl
  have written := encodeStored_of_received wellFormed found' members holds delivered
    (List.forall_mem_nil _)
  exact ⟨conversation, store₁, _, _, read, resolved, delivered, written,
    wellFormed.ofBytes_toBody_ne other⟩

end SealedMail.Store
