import SealedMail.Proofs.Decoding
import SealedMail.Proofs.Encoding
import SealedMail.Proofs.Reading
import SealedMail.Proofs.Store.Conversations

/-!
# Replies

A message is for a group: its sender and its recipients. Each account that reads it has the others
in its conversation, so no two of them have the same set. A reply goes to the set that its author
has, and comes from the author; so each reader of the reply has the group without itself once more
(`Body.participantsFor_reply`), and finds the conversation that it has for the message
(`replies_stay_in_group`).
-/

namespace SealedMail

/-! ## Bodies -/

namespace Body

variable {body reply : Body} {own : Address}

/-- A reply of a member of the group shows the same group to every reader. -/
lemma participantsFor_reply (member : own = body.sender.address ∨ own ∈ body.recipients)
    (author : reply.sender.address = own) (same : reply.recipients = body.participantsFor own)
    (other : Address) : reply.participantsFor other = body.participantsFor other := by
  refine AddressSet.eq_of_mem_iff fun a => ?_
  rw [mem_participantsFor, mem_participantsFor, same, mem_participantsFor, author]
  refine and_congr_left fun _ => ⟨?_, fun mem => ?_⟩
  · rintro (⟨mem, _⟩ | rfl)
    · exact mem
    · exact member.symm
  · by_cases self : a = own
    · exact .inr self
    · exact .inl ⟨mem, self⟩

/-- Every reader accepts a reply whose author has a name. -/
lemma isReadable_reply (readable : body.IsReadable) (author : reply.sender.address = own)
    (same : reply.recipients = body.participantsFor own) (name : reply.sender.name ≠ "")
    (described : ∀ info ∈ reply.attachments, info.IsReadable)
    (few : reply.attachments.length ≤ UInt32.size) : reply.IsReadable := by
  refine ⟨name, ?_, ?_, described, few⟩
  · rw [same]
    exact readable.exists_mem_participantsFor own
  · rw [same, author]
    exact not_mem_participantsFor body own

end Body

/-! ## The conversation of a message -/

namespace Inbox

/-- The account `own` has the conversation for a message with the body `b`: it decoded and filed it,
or sent it, and the conversation is the first one with the recipients. All conversations were
created in the store itself. -/
def HasFor (inbox : Inbox) (own : Address) (b : Bytes) (conversation : Conversation) : Prop :=
  Run (fun _ => True) empty inbox ∧
    ((∃ (opened : OpenedMessage) (expand : Bytes → Except MailError Bytes) (verify : Bool)
        (keys : Directory) (message : DecodedMessage),
        expand opened.content.data = .ok b ∧
        opened.decodeWith own expand verify keys = .ok message ∧
        (message, conversation) ∈ inbox.filed) ∨
      ∃ recipients, ReceivedBody.Names b own recipients ∧
        inbox.store.IsFirst recipients conversation)

variable {inbox : Inbox} {own : Address} {b : Bytes} {conversation : Conversation} {body : Body}

/-- The conversation that an account has for a message is the first one of those it sees in it. -/
lemma HasFor.isFirst (has : inbox.HasFor own b conversation)
    (named : ReceivedBody.Names b body.sender.address body.recipients)
    (others : body.sender.address ∉ body.recipients)
    (read : ReceivedBody.ofBytes own b = .ok (body.receivedBy own)) :
    inbox.store.IsFirst (body.participantsFor own) conversation := by
  obtain ⟨run, ⟨opened, expand, verify, keys, message, expanded, decoded, mem⟩ | sent⟩ := has
  · have first := (sound_empty.run run).filed message conversation mem
    obtain ⟨_, data, again⟩ := bind_eq_ok.mp (OpenedMessage.body_of_decodeWith decoded).1
    rw [expanded, Except.ok.injEq] at data
    rw [← data, read, Except.ok.injEq] at again
    have participants : body.participantsFor own = message.participants :=
      congrArg ReceivedBody.participants again
    rwa [participants]
  · obtain ⟨recipients, named', first⟩ := sent
    obtain ⟨rfl, rfl⟩ := named.unique named'
    rwa [body.participantsFor_sender others]

end Inbox

/-- A reply goes to the first conversation of those whom its author sees in a body, and comes to the
first one of those whom its reader sees in it. -/
lemma Store.IsFirst.exists_reply {store store' : Store} {body : Body} {own other : Address}
    {conversation conversation' : Conversation} {attachments : List Attachment}
    (first : store.IsFirst (body.participantsFor own) conversation)
    (first' : store'.IsFirst (body.participantsFor other) conversation')
    (readable : body.IsReadable) (member : own = body.sender.address ∨ own ∈ body.recipients)
    (reply : Body) (author : reply.sender.address = own)
    (recipients : reply.recipients = conversation.participants)
    (index : reply.attachments = attachments.map Attachment.info) (name : reply.sender.name ≠ "")
    (described : ∀ a ∈ attachments, a.info.size.toNat = a.content.length ∧ a.info.IsReadable)
    (few : attachments.length ≤ UInt32.size) :
    ∃ encoded received,
      store.archive.encode conversation.id reply.sender reply.dateSent reply.text reply.footer
        attachments = .ok encoded ∧
      ReceivedBody.ofBytes other encoded.content = .ok received ∧
      store'.conversationOf received.participants = some (conversation', store') := by
  have members : reply.recipients = body.participantsFor own := recipients.trans first.members
  have readable' : reply.IsReadable := by
    refine Body.isReadable_reply readable author members name ?_ ?_
    · rw [index]
      intro info mem
      obtain ⟨a, mem', rfl⟩ := List.mem_map.mp mem
      exact (described a mem').2
    · rwa [index, List.length_map]
  obtain ⟨content, encoded, read⟩ : ∃ content,
      store.archive.encode conversation.id reply.sender reply.dateSent reply.text reply.footer
        attachments = .ok ⟨content, attachments.flatMap Attachment.content⟩ ∧
      ReceivedBody.ofBytes other content = .ok (reply.receivedBy other) := by
    refine ⟨reply.toBytes, Archive.encode_eq_ok.mpr
      ⟨conversation, first.found, fun a mem => (described a mem).1, ?_⟩,
      ReceivedBody.ofBytes_toBytes.mpr ⟨readable', rfl⟩⟩
    rw [← recipients, ← index]
  refine ⟨_, _, encoded, read, ?_⟩
  show store'.conversationOf (reply.participantsFor other) = _
  rw [Body.participantsFor_reply member author members other]
  exact first'.conversationOf_eq

/-- All members agree on the group, and replies stay in it. If one account can read a body, every
account can. Then the body names a sender and recipients, and each account sees them all but itself,
which is never nobody. Now let a member of the group reply, from the conversation that it has for
the message and with its own address as sender. Let it have a name, and let the attachments be as
long as they declare, and described as a reader wants it. Then the reply is encoded, and whoever
else has a conversation for the message reads the reply and finds this conversation for it. -/
theorem replies_stay_in_group (b : Bytes) :
    (∀ own other, (∃ received, ReceivedBody.ofBytes own b = .ok received) ↔
      ∃ received, ReceivedBody.ofBytes other b = .ok received) ∧
    ∀ reader read, ReceivedBody.ofBytes reader b = .ok read →
      ∃ sender recipients, ReceivedBody.Names b sender recipients ∧
        (∀ own received, ReceivedBody.ofBytes own b = .ok received →
          (∀ a, a ∈ received.participants ↔ (a = sender ∨ a ∈ recipients) ∧ a ≠ own) ∧
          (∃ a, a ∈ received.participants) ∧ own ∉ received.participants) ∧
        ∀ own other inbox inbox' conversation conversation', own = sender ∨ own ∈ recipients →
          Inbox.HasFor inbox own b conversation → Inbox.HasFor inbox' other b conversation' →
          ∀ (author : Sender) (dateSent : DateTime) (text footer : String)
            (attachments : List Attachment), author.address = own → author.name ≠ "" →
            (∀ a ∈ attachments, a.info.size.toNat = a.content.length ∧ a.info.IsReadable) →
            attachments.length ≤ UInt32.size →
            ∃ encoded received,
              inbox.store.archive.encode conversation.id author dateSent text footer attachments =
                .ok encoded ∧
              ReceivedBody.ofBytes other encoded.content = .ok received ∧
              inbox'.store.conversationOf received.participants =
                some (conversation', inbox'.store) := by
  refine ⟨?_, ?_⟩
  · intro own other
    refine ⟨?_, ?_⟩
    · rintro ⟨received, accepted⟩
      obtain ⟨body, _, _, every⟩ := ReceivedBody.exists_body accepted
      exact ⟨_, every other⟩
    · rintro ⟨received, accepted⟩
      obtain ⟨body, _, _, every⟩ := ReceivedBody.exists_body accepted
      exact ⟨_, every own⟩
  · intro reader read accepted
    obtain ⟨body, readable, named, every⟩ := ReceivedBody.exists_body accepted
    refine ⟨body.sender.address, body.recipients, named, ?_, ?_⟩
    · intro own received accepted'
      rw [every, Except.ok.injEq] at accepted'
      subst accepted'
      refine ⟨fun a => ?_, readable.exists_mem_participantsFor own,
        body.not_mem_participantsFor own⟩
      exact Body.mem_participantsFor.trans (and_congr_left fun _ => or_comm)
    · intro own other inbox inbox' conversation conversation' member has has' author dateSent text
        footer attachments self name described few
      have first := has.isFirst named readable.2.2.1 (every own)
      have first' := has'.isFirst named readable.2.2.1 (every other)
      exact first.exists_reply first' readable member
        ⟨author, conversation.participants, dateSent, text, footer, attachments.map Attachment.info⟩
        self rfl rfl name described few

/-- Ann writes to Bob and Carol, from the first one of two conversations with them. Bob files the
message and replies to it with a file. Carol, who had a conversation with the two others before, and
Ann find what they have. -/
theorem replies_stay_in_group_three :
    let ann : Address := ⟨"ann", "example.org", by decide, by decide⟩
    let bob : Address := ⟨"bob", "example.org", by decide, by decide⟩
    let carol : Address := ⟨"carol", "example.org", by decide, by decide⟩
    let date : DateTime := ⟨⟨2024, 2, 29, 12, 30, 0, 0, 60⟩, by decide⟩
    let body : Body := ⟨⟨ann, "Ann", "", none⟩, .ofList [bob, carol], date, "Hello", "Bye", []⟩
    let opened : OpenedMessage := ⟨7, 0, date, ⟨List.replicate 32 0⟩, ⟨4, [], body.toBytes⟩,
      ⟨[], ⟨List.replicate 32 0⟩⟩⟩
    let first : Conversation := ⟨1, .ofList [bob, carol]⟩
    let sent := Store.empty.afterAll [.createConversation first.participants,
      .createConversation first.participants]
    let known := Store.empty.after (.createConversation (.ofList [ann, bob]))
    ∃ (message message' : DecodedMessage) (inbox inbox' : Inbox)
      (conversation conversation' : Conversation) (encoded : EncodedMessage)
      (received received' : ReceivedBody),
      opened.decode bob .none false (Store.directory .empty) = .ok message ∧
      opened.decode carol .none false (Store.directory .empty) = .ok message' ∧
      Inbox.empty.file message = some inbox ∧ inbox.filed = [(message, conversation)] ∧
      Inbox.file ⟨known, []⟩ message' = some inbox' ∧ inbox'.filed = [(message', conversation')] ∧
      inbox.store.archive.encode conversation.id ⟨bob, "Bob", "", none⟩ date "Hi" ""
        [⟨⟨0, "a.txt", "text/plain", "", 2, "00"⟩, [1, 2]⟩] = .ok encoded ∧
      ReceivedBody.ofBytes carol encoded.content = .ok received ∧
      inbox'.store.conversationOf received.participants = some (conversation', inbox'.store) ∧
      ReceivedBody.ofBytes ann encoded.content = .ok received' ∧
      sent.conversationOf received'.participants = some (first, sent) := by
  intro ann bob carol date body opened first sent known
  have readable : body.IsReadable :=
    ⟨by decide, ⟨bob, AddressSet.mem_ofList.mpr (.head _)⟩, by decide, List.forall_mem_nil _,
      by decide⟩
  have data : opened.content.data = body.toBytes := by dsimp only [opened]
  have expanded : Compression.decompress .none opened.content.data = .ok body.toBytes :=
    congrArg Except.ok data
  obtain ⟨message, read⟩ :
      ∃ message, opened.decode bob .none false (Store.directory .empty) = .ok message :=
    ⟨_, opened.decode_toBytes data readable (if_neg (show ann ≠ bob by decide)) _⟩
  obtain ⟨message', read'⟩ :
      ∃ message, opened.decode carol .none false (Store.directory .empty) = .ok message :=
    ⟨_, opened.decode_toBytes data readable (if_neg (show ann ≠ carol by decide)) _⟩
  obtain ⟨inbox, conversation, filed, run, mem⟩ : ∃ inbox conversation,
      Inbox.empty.file message = some inbox ∧ Inbox.Run (fun _ => True) .empty inbox ∧
        inbox.filed = [(message, conversation)] :=
    ⟨_, _, Inbox.file_empty message, .single (.file message (Inbox.file_empty message)), rfl⟩
  obtain ⟨inbox', conversation', filed', run', mem'⟩ : ∃ inbox conversation,
      Inbox.file ⟨known, []⟩ message' = some inbox ∧ Inbox.Run (fun _ => True) .empty inbox ∧
        inbox.filed = [(message', conversation)] := by
    have next : known.conversations.nextId? = some 2 := rfl
    obtain ⟨given, store, resolved⟩ := Store.exists_conversationOf next message'.participants
    have filed' : Inbox.file ⟨known, []⟩ message' = some ⟨store, [(message', given)]⟩ :=
      Inbox.file_eq_some.mpr ⟨_, _, resolved, rfl⟩
    exact ⟨_, given, filed', .tail (.single (.request (.createConversation (.ofList [ann, bob]))
      trivial trivial)) (.file message' filed'), rfl⟩
  have own : inbox.HasFor bob body.toBytes conversation :=
    ⟨run, .inl ⟨opened, _, false, _, message, expanded, read, mem ▸ .head _⟩⟩
  have other : inbox'.HasFor carol body.toBytes conversation' :=
    ⟨run', .inl ⟨opened, _, false, _, message', expanded, read', mem' ▸ .head _⟩⟩
  have named := ReceivedBody.names_toBytes body
  have sender : Inbox.HasFor ⟨sent, []⟩ ann body.toBytes first := by
    refine ⟨.tail (.single (.request (.createConversation first.participants) trivial trivial))
      (.request (.createConversation first.participants) trivial trivial),
      .inr ⟨_, named, rfl, rfl, ?_⟩⟩
    intro n conversation there _
    rcases Table.of_get?_put there with ⟨rfl, _⟩ | ⟨_, before⟩
    · decide
    · rcases Table.of_get?_put before with ⟨rfl, _⟩ | ⟨_, none⟩
      · decide
      · cases none
  have accepted : ReceivedBody.ofBytes ann body.toBytes = .ok (body.receivedBy ann) :=
    ReceivedBody.ofBytes_toBytes.mpr ⟨readable, rfl⟩
  obtain ⟨_, _, named', _, replies⟩ := (replies_stay_in_group body.toBytes).2 ann _ accepted
  obtain ⟨rfl, rfl⟩ := named'.unique named
  have member : bob = ann ∨ bob ∈ body.recipients := .inr (AddressSet.mem_ofList.mpr (.head _))
  have described : ∀ a ∈ [Attachment.mk ⟨0, "a.txt", "text/plain", "", 2, "00"⟩ [1, 2]],
      a.info.size.toNat = a.content.length ∧ a.info.IsReadable :=
    List.forall_mem_singleton.mpr
      ⟨rfl, by decide, by decide, by decide, List.all_eq_true.mp (by decide)⟩
  obtain ⟨encoded, received, written, found⟩ := replies bob carol _ _ _ _ member own other
    ⟨bob, "Bob", "", none⟩ date "Hi" "" _ rfl (by decide) described (by decide)
  obtain ⟨encoded', received', written', found'⟩ := replies bob ann _ _ _ _ member own sender
    ⟨bob, "Bob", "", none⟩ date "Hi" "" _ rfl (by decide) described (by decide)
  rw [written, Except.ok.injEq] at written'
  subst written'
  exact ⟨message, message', inbox, inbox', conversation, conversation', encoded, received,
    received', read, read', filed, mem, filed', mem', written, found.1, found.2, found'⟩

end SealedMail
