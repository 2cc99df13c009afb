import SealedMail.Proofs.Store.Downloads

/-!
# Sound stores

What holds of every store, and what encoding from it can fail for. A store is used in order
(`Store.Orderly`) if it begins empty, saves only messages that were read, and gets the payloads of a
message only by a whole run of the splitter, or by receiving, over the attachments that it lists for
this message. Such a store is sound (`Store.Sound`): its tables refer to each other, and its
attachments are what the index says, or empty while they have not come. One lemma for each kind of
use says that it keeps the store sound (`Step.sound`, `Sound.delivered`). From a sound store every
draft is encoded, and every message of which all attachments have come (`orderly_store_sound`).
-/

namespace SealedMail

/-! ## Attachments -/

/-- The index tells the length and the digest of the payload. -/
def Attachment.IsDescribed (attachment : Attachment) : Prop :=
  attachment.info.size.toNat = attachment.content.length ∧
    attachment.info.hash = Hex.encode (Sha512.digest attachment.content)

/-- The payload has not come, or the index tells its length and its digest, in any letter case. -/
def Attachment.IsAwaited (attachment : Attachment) : Prop :=
  attachment.content = [] ∨
    attachment.content.length = attachment.info.size.toNat ∧
      attachment.info.slot.Names attachment.content

/-- An attachment that is named by a description of another payload is described by it. -/
lemma Attachment.IsDescribed.of_names {attachment other : Attachment}
    (described : other.IsDescribed) (same : other.info = attachment.info)
    (size : attachment.content.length = attachment.info.size.toNat)
    (named : attachment.info.slot.Names attachment.content) : attachment.IsDescribed := by
  have hash := described.2
  rw [same] at hash
  refine ⟨size.symm, ?_⟩
  -- the digest that the index tells is in small letters, so that its case makes no difference
  have digits : attachment.info.hash.toList.map Char.toLower =
      (Hex.encode (Sha512.digest attachment.content)).toList := named
  rw [hash, Hex.map_toLower_encode] at digits
  rw [hash]
  exact String.toList_injective digits

namespace Store

/-- The attachments of a message as it is kept: those of a message that was sent are all described,
and those of one that was received may not have come yet. -/
structure Fits (row : MessageRow) (attachments : List Attachment) : Prop where
  positioned : Positioned attachments
  few : row.received ≠ none → attachments.length ≤ UInt32.size
  sent : row.received = none → ∀ a ∈ attachments, a.IsDescribed
  received : row.received ≠ none → ∀ a ∈ attachments, a.IsAwaited

/-- Attachments with the same descriptions tell the same positions. -/
lemma Positioned.of_infos {attachments attachments' : List Attachment}
    (positioned : Positioned attachments)
    (same : attachments'.map Attachment.info = attachments.map Attachment.info) :
    Positioned attachments' := by
  intro i h'
  have lengths := congrArg List.length same
  rw [List.length_map, List.length_map] at lengths
  have info : attachments'[i].info = attachments[i].info := by
    have at_i := List.getElem_of_eq same (by rwa [List.length_map])
    rwa [List.getElem_map, List.getElem_map] at at_i
  rw [info]
  exact positioned i _

/-- Payloads of the length and the digest of the first attachments may take their places. -/
lemma Fits.delivered {row : MessageRow} {attachments filled : List Attachment} {k : Nat}
    (fits : Fits row attachments)
    (same : filled.map Attachment.info = (attachments.take k).map Attachment.info)
    (correct : ∀ a ∈ filled, a.content.length = a.info.size.toNat ∧ a.info.slot.Names a.content) :
    Fits row (filled ++ attachments.drop k) := by
  have infos : (filled ++ attachments.drop k).map Attachment.info =
      attachments.map Attachment.info := by
    rw [List.map_append, same, ← List.map_append, List.take_append_drop]
  refine ⟨fits.positioned.of_infos infos, ?_, ?_, ?_⟩
  · intro received
    have lengths := congrArg List.length infos
    rw [List.length_map, List.length_map] at lengths
    exact lengths.trans_le (fits.few received)
  · intro sent
    refine List.forall_mem_append.mpr ⟨fun a ha => ?_, fun a ha => ?_⟩
    · have mem : a.info ∈ filled.map Attachment.info := List.mem_map_of_mem ha
      rw [same] at mem
      obtain ⟨b, hb, info⟩ := List.mem_map.mp mem
      exact (fits.sent sent b (List.mem_of_mem_take hb)).of_names info (correct a ha).1
        (correct a ha).2
    · exact fits.sent sent a (List.mem_of_mem_drop ha)
  · intro received
    refine List.forall_mem_append.mpr ⟨fun a ha => .inr (correct a ha), fun a ha => ?_⟩
    exact fits.received received a (List.mem_of_mem_drop ha)

/-! ## The invariant -/

/-- The tables of a store refer to each other, and attachments are what the index says. -/
structure Sound (store : Store) : Prop where
  conversations : store.conversations.Keyed Conversation.id
  drafts : ∀ n draft, store.drafts.get? n = some draft →
    draft.conversation = n ∧ ∃ conversation, store.conversations.get? n = some conversation
  draftAttachments : ∀ n list, store.draftAttachments.get? n = some list →
    Positioned list ∧ ∀ a ∈ list, a.IsDescribed
  messages : ∀ n row, store.messages.get? n = some row →
    row.message.id = n ∧
    (∃ conversation, store.conversations.get? row.message.conversation = some conversation) ∧
    (∃ list, store.attachments.get? n = some list) ∧
    ∀ k ∈ row.sender.avatar, ∃ avatar, store.avatars.get? k = some avatar
  attachments : ∀ n list, store.attachments.get? n = some list →
    ∃ row, store.messages.get? n = some row ∧ Fits row list

/-- The request may be made in order: a message that is saved was read, and no sink is closed on its
own. -/
def Request.IsOrderly : Request → Prop
  | .saveMessage message _ => ∃ (opened : OpenedMessage) (own : Address)
      (expand : Bytes → Except MailError Bytes) (verify : Bool) (keys : Directory),
      opened.decodeWith own expand verify keys = .ok message
  | .closeSink _ _ => False
  | _ => True

/-- No two attachments of the message tell the same position. Of a message that was received this is
known, since an index with more entries is not read. -/
def HasPositions (store : Store) (id : UInt64) : Prop :=
  store.messageRecord id = none → (store.archive.attachments id).length ≤ UInt32.size

/-- A store that comes of an empty one by requests in order, and by runs over the attachments that it
lists for a message, however they end. -/
inductive Orderly : Store → Prop where
  | empty : Orderly empty
  | after {store} (request : Request) :
    Orderly store →
    request.IsOrderly →
    Orderly (store.after request)
  | split {store id pieces failure store'} :
    Orderly store →
    store.HasPositions id →
    Splitter.run (attachmentSinks id) ((store.archive.attachments id).map fun a => a.info.slot)
      pieces store = (failure, store') →
    Orderly store'
  | receive {store id key mode limits chunkSize pieces result store'} :
    Orderly store →
    store.HasPositions id →
    Attachments.receive (attachmentSinks id)
      ((store.archive.attachments id).map fun a => a.info.slot) key mode limits chunkSize pieces
      store = (result, store') →
    Orderly store'

variable {store store' : Store} {request : Request} {id : UInt64}

/-- A store stays orderly as long as it is treated so. -/
lemma Orderly.afterAll (orderly : store.Orderly) {requests : List Request}
    (may : ∀ request ∈ requests, request.IsOrderly) : (store.afterAll requests).Orderly := by
  induction requests generalizing store with
  | nil => exact orderly
  | cons request rest ih =>
    obtain ⟨here, later⟩ := List.forall_mem_cons.mp may
    exact ih (orderly.after request here) later

/-- An empty store is sound. -/
lemma sound_empty : empty.Sound := by
  refine ⟨Table.keyed_empty, ?_, ?_, ?_, ?_⟩
  · intro n draft h
    cases h
  · intro n list h
    cases h
  · intro n row h
    cases h
  · intro n list h
    cases h

/-- The files of a draft tell their positions and are described. -/
lemma Sound.draftAttachmentList (sound : store.Sound) (conversation : UInt64) :
    Positioned (store.draftAttachmentList conversation) ∧
      ∀ a ∈ store.draftAttachmentList conversation, a.IsDescribed := by
  rw [Store.draftAttachmentList]
  cases found : store.draftAttachments.get? conversation with
  | none => exact ⟨nofun, nofun⟩
  | some list => exact sound.draftAttachments conversation list found

/-! ## Requests -/

/-- A sound store stays sound with more conversations. -/
lemma Sound.with_conversations (sound : store.Sound) {conversations : Table UInt64 Conversation}
    (keyed : conversations.Keyed Conversation.id)
    (grows : store.conversations.Grows conversations) : { store with conversations }.Sound where
  conversations := keyed
  drafts n draft h := by
    obtain ⟨number, conversation, found⟩ := sound.drafts n draft h
    exact ⟨number, conversation, grows _ _ found⟩
  draftAttachments := sound.draftAttachments
  messages n row h := by
    obtain ⟨number, ⟨conversation, found⟩, rest⟩ := sound.messages n row h
    exact ⟨number, ⟨conversation, grows _ _ found⟩, rest⟩
  attachments := sound.attachments

/-- A sound store stays sound with a further file in a draft. -/
lemma Sound.addAttachment (sound : store.Sound) {conversation : UInt64} {list : List Attachment}
    (same : list = store.draftAttachmentList conversation) {content : Bytes}
    (short : content.length < UInt32.size) (filename mimeType note : String) :
    Sound { store with
      draftAttachments := store.draftAttachments.put conversation
        (list ++ [⟨describe list.length filename mimeType note content, content⟩]) } := by
  refine ⟨sound.conversations, sound.drafts, ?_, sound.messages, sound.attachments⟩
  intro n list' h
  rcases Table.of_get?_put h with ⟨rfl, rfl⟩ | ⟨_, before⟩
  · obtain ⟨positioned, described⟩ := sound.draftAttachmentList n
    rw [← same] at positioned described
    refine ⟨fun i hi => ?_, List.forall_mem_append.mpr
      ⟨described, List.forall_mem_singleton.mpr ⟨?_, rfl⟩⟩⟩
    · rw [List.length_append, List.length_singleton] at hi
      rw [List.getElem_append]
      split
      next before => exact positioned i before
      next after =>
        obtain rfl : i = list.length := by omega
        rw [List.getElem_singleton]
        rfl
    · exact UInt32.toNat_ofNat_of_lt' short
  · exact sound.draftAttachments n list' before

/-- A store stays sound when a draft is taken out. -/
lemma Sound.takeDraft (sound : store.Sound) (conversation : UInt64) :
    (store.takeDraft conversation).Sound := by
  refine ⟨sound.conversations, ?_, ?_, sound.messages, sound.attachments⟩
  · intro n draft h
    exact sound.drafts n draft (Table.get?_of_erase h)
  · intro n list h
    exact sound.draftAttachments n list (Table.get?_of_erase h)

/-- A message is kept with its sender and with attachments that fit it. -/
lemma Sound.keepMessage (sound : store.Sound) {message : StoredMessage} {conversation : Conversation}
    (found : store.conversations.get? message.conversation = some conversation) (sender : Sender)
    {received : Option MessageRecord} {list : List Attachment}
    (fits : Fits ⟨message, senderRow sender, received⟩ list) :
    (store.keepMessage message sender received list).Sound := by
  rw [keepMessage_eq]
  refine ⟨sound.conversations, sound.drafts, sound.draftAttachments, ?_, ?_⟩
  · intro n row h
    rw [Table.get?_put]
    rcases Table.of_get?_put h with ⟨rfl, rfl⟩ | ⟨other, before⟩
    · rw [if_pos rfl]
      exact ⟨rfl, ⟨conversation, found⟩, ⟨list, rfl⟩, (shows_senderRow store sender rfl).picture⟩
    · rw [if_neg other]
      obtain ⟨number, found', kept, picture⟩ := sound.messages n row before
      refine ⟨number, found', kept, fun k hk => ?_⟩
      obtain ⟨avatar, here⟩ := picture k hk
      exact ⟨avatar, grows_withAvatar _ _ k avatar here⟩
  · intro n list' h
    rw [Table.get?_put]
    rcases Table.of_get?_put h with ⟨rfl, rfl⟩ | ⟨other, before⟩
    · rw [if_pos rfl]
      exact ⟨_, rfl, fits⟩
    · rw [if_neg other]
      exact sound.attachments n list' before

/-- A message that was decoded fits its index. -/
lemma fits_of_decodeWith {opened : OpenedMessage} {own : Address}
    {expand : Bytes → Except MailError Bytes} {verify : Bool} {keys : Directory}
    {message : DecodedMessage} (read : opened.decodeWith own expand verify keys = .ok message)
    (stored : StoredMessage) (sender : SenderRow) :
    Fits ⟨stored, sender, some message.record⟩
      (message.attachments.map fun info => ⟨info, []⟩) := by
  obtain ⟨_, _, body⟩ := bind_eq_ok.mp (OpenedMessage.body_of_decodeWith read).1
  have wellFormed := ReceivedBody.wellFormed_of_ofBytes body
  refine ⟨positioned_of_numbered wellFormed.numbered, fun _ => ?_, nofun, fun _ a ha => ?_⟩
  · rw [List.length_map]
    exact wellFormed.few
  · obtain ⟨info, _, rfl⟩ := List.mem_map.mp ha
    exact .inl rfl

/-- Requests in order keep a store sound. -/
theorem Step.sound (step : Step store request store') (orderly : request.IsOrderly)
    (sound : store.Sound) : store'.Sound := by
  cases step with
  | refused => exact sound
  | addPrivateKey =>
    exact ⟨sound.conversations, sound.drafts, sound.draftAttachments, sound.messages,
      sound.attachments⟩
  | addPublicKey =>
    exact ⟨sound.conversations, sound.drafts, sound.draftAttachments, sound.messages,
      sound.attachments⟩
  | createConversation next =>
    exact sound.with_conversations (sound.conversations.put rfl)
      (Table.grows_put (Table.get?_of_nextId? next) _)
  | @saveDraft draft conversation found =>
    refine ⟨sound.conversations, ?_, sound.draftAttachments, sound.messages, sound.attachments⟩
    intro n draft' h
    rcases Table.of_get?_put h with ⟨rfl, rfl⟩ | ⟨_, before⟩
    · exact ⟨rfl, conversation, found⟩
    · exact sound.drafts n draft' before
  | addDraftAttachment short same =>
    exact sound.addAttachment same short _ _ _
  | @commitDraft conversation address dateSent draft id found _ =>
    obtain ⟨_, members, here⟩ := sound.drafts conversation draft found
    obtain ⟨positioned, described⟩ := sound.draftAttachmentList conversation
    have there : (store.takeDraft conversation).conversations.get? conversation = some members :=
      here
    exact (sound.takeDraft conversation).keepMessage there _
      ⟨positioned, fun sent => absurd rfl sent, fun _ => described, fun sent => absurd rfl sent⟩
  | loseDraft => exact sound.takeDraft _
  | @saveMessage message conversation =>
    obtain ⟨opened, own, expand, verify, keys, read⟩ := orderly
    have grown := sound.with_conversations (sound.conversations.putNew rfl)
      (Table.grows_putNew store.conversations conversation.id conversation)
    have found := (Table.get?_putNew store.conversations conversation.id conversation.id
      conversation).trans (if_pos rfl)
    exact grown.keepMessage found _ (fits_of_decodeWith read _ _)
  | @setFlags marked read done message sender record found =>
    obtain ⟨number, conversation, kept, picture⟩ := sound.messages _ _ found
    refine ⟨sound.conversations, sound.drafts, sound.draftAttachments, ?_, ?_⟩
    · intro n row h
      rcases Table.of_get?_put h with ⟨rfl, rfl⟩ | ⟨_, before⟩
      · exact ⟨number, conversation, kept, picture⟩
      · exact sound.messages n row before
    · intro n list h
      obtain ⟨row, here, fits⟩ := sound.attachments n list h
      rw [Table.get?_put]
      split
      next same =>
        subst same
        rw [found] at here
        cases here
        have awaited := Option.some_ne_none record
        refine ⟨_, rfl, fits.positioned, fun _ => fits.few awaited, fun sent => ?_,
          fun _ => fits.received awaited⟩
        exact absurd sent (Option.some_ne_none _)
      next => exact ⟨row, here, fits⟩
  | closeSink => exact orderly.elim

/-! ## Runs -/

/-- Slices that are delivered to the first attachments of a message keep a store sound. -/
lemma Sound.delivered (sound : store.Sound) (distinct : store.HasPositions id)
    {full rest : List Slot} {data : Bytes}
    (split : ((store.archive.attachments id).map fun a => a.info.slot) = full ++ rest)
    (room : totalSize full ≤ data.length)
    (delivers : (attachmentSinks id).Delivers (slices full data) store store') : store'.Sound := by
  rw [HasPositions, archive_attachments, messageRecord] at distinct
  rw [archive_attachments] at split
  cases kept : store.attachments.get? id with
  | none =>
    rw [kept] at split
    obtain ⟨rfl, _⟩ := List.append_eq_nil_iff.mp split.symm
    cases delivers
    exact sound
  | some list =>
    obtain ⟨row, found, fits⟩ := sound.attachments id list kept
    rw [kept] at split
    rw [kept, found, Option.getD_some, Option.bind_some] at distinct
    have few : list.length ≤ UInt32.size := by
      by_cases sent : row.received = none
      · exact distinct sent
      · exact fits.few sent
    obtain ⟨filled, same, _, correct, rfl⟩ :=
      delivered_in_order kept (fits.positioned.numbered few) split room delivers
    refine ⟨sound.conversations, sound.drafts, sound.draftAttachments, ?_, ?_⟩
    · intro n row' h
      obtain ⟨number, conversation, kept', picture⟩ := sound.messages n row' h
      refine ⟨number, conversation, ?_, picture⟩
      rw [Table.get?_put]
      split
      next => exact ⟨_, rfl⟩
      next => exact kept'
    · intro n list' h
      rcases Table.of_get?_put h with ⟨rfl, rfl⟩ | ⟨_, before⟩
      · exact ⟨row, found, fits.delivered same correct⟩
      · exact sound.attachments n list' before

/-- An orderly store is sound. -/
theorem Orderly.sound (orderly : store.Orderly) : store.Sound := by
  induction orderly with
  | empty => exact sound_empty
  | after request _ may ih => exact (step_after _ request).sound may ih
  | @split store id pieces failure store' _ distinct ran ih =>
    obtain ⟨full, rest, split, room, delivers, _⟩ :=
      (Splitter.ends_of_run ran).exists_full (withholds_attachmentSinks id)
    exact ih.delivered distinct split room delivers
  | @receive store id key mode limits chunkSize pieces result store' _ distinct received ih =>
    obtain ⟨full, rest, split, room, delivers, _⟩ :=
      (Attachments.ends_of_receive received).exists_full (withholds_attachmentSinks id)
    exact ih.delivered distinct split room delivers

/-! ## Encoding -/

/-- In a sound store every draft can be encoded. -/
lemma Sound.exists_encodeDraft (sound : store.Sound) {conversation : UInt64} {draft : Draft}
    (saved : store.draft conversation = some draft) (address : Address) (dateSent : DateTime) :
    ∃ encoded, store.archive.encodeDraft address draft dateSent = .ok encoded := by
  obtain ⟨rfl, members, found⟩ := sound.drafts conversation draft saved
  refine Archive.exists_encodeDraft address dateSent found fun a ha => ?_
  exact ((sound.draftAttachmentList draft.conversation).2 a ha).1

/-- In a sound store a message is not encoded only if it is not there, or if an attachment was not
downloaded. -/
lemma Sound.of_encodeStored_error (sound : store.Sound) {e : MailError}
    (refused : store.archive.encodeStored id = .error e) :
    (store.archive.message id = none ∧ e = .integrity (.missingMessage id)) ∨
      (store.messageRecord id ≠ none ∧ ∃ a ∈ store.archive.attachments id,
        a.content = [] ∧ a.info.size ≠ 0 ∧
          e = .integrity (.sizeMismatch a.info.index a.info.size 0)) := by
  cases found : store.messages.get? id with
  | none =>
    have missing : store.archive.message id = none := by rw [archive_message, found, Option.map_none]
    rw [Archive.encodeStored, missing] at refused
    cases refused
    exact .inl ⟨missing, rfl⟩
  | some row =>
    obtain ⟨_, ⟨members, here⟩, ⟨list, kept⟩, _⟩ := sound.messages id row found
    obtain ⟨row', found', fits⟩ := sound.attachments id list kept
    rw [found, Option.some.injEq] at found'
    subst found'
    have attachments : store.archive.attachments id = list := by
      rw [archive_attachments, kept, Option.getD_some]
    rw [Archive.encodeStored, archive_message, archive_sender, found, attachments] at refused
    obtain ⟨a, ha, size, rfl⟩ := Attachments.of_concat_error (Archive.of_encode_error here refused)
    -- what was sent is described, and what came is, so that the payload has not come
    have awaited : row.received ≠ none := by
      intro sent
      exact size (fits.sent sent a ha).1
    have empty : a.content = [] := by
      rcases fits.received awaited a ha with empty | ⟨length, _⟩
      · exact empty
      · exact absurd length.symm size
    rw [empty] at size ⊢
    refine .inr ⟨?_, a, attachments ▸ ha, empty, ?_, rfl⟩
    · rw [Store.messageRecord, found, Option.bind_some]
      exact awaited
    · intro zero
      rw [zero] at size
      exact size rfl

/-- However a store is used in order, it is sound. So every draft that is saved in it is encoded, by
whomever and at whatever date it is sent. And encoding a message once more fails only if there is no
message with this number, or if it was received and the payload of an attachment, which is not
empty, has not come yet. -/
theorem orderly_store_sound (orderly : store.Orderly) :
    store.Sound ∧
      (∀ conversation draft address dateSent, store.draft conversation = some draft →
        ∃ encoded, store.archive.encodeDraft address draft dateSent = .ok encoded) ∧
      ∀ id e, store.archive.encodeStored id = .error e →
        (store.archive.message id = none ∧ e = .integrity (.missingMessage id)) ∨
          (store.messageRecord id ≠ none ∧ ∃ a ∈ store.archive.attachments id,
            a.content = [] ∧ a.info.size ≠ 0 ∧
              e = .integrity (.sizeMismatch a.info.index a.info.size 0)) := by
  have sound := orderly.sound
  refine ⟨sound, ?_, ?_⟩
  · intro conversation draft address dateSent saved
    exact sound.exists_encodeDraft saved address dateSent
  · intro id e refused
    exact sound.of_encodeStored_error refused

/-- Ann sends Bob a file, and receiving its payload once more, without any ciphertext, comes to
nothing. The message is encoded from what is kept. -/
theorem orderly_store_sound_sent :
    let ann : Address := ⟨"ann", "example.org", by decide, by decide⟩
    let bob : Address := ⟨"bob", "example.org", by decide, by decide⟩
    let date : DateTime := ⟨⟨2024, 2, 29, 12, 30, 0, 0, 60⟩, by decide⟩
    let store := Store.empty.afterAll [.createConversation (.ofList [bob]),
      .saveDraft ⟨1, "Ann", "", none, "Hello", "Bye"⟩,
      .addDraftAttachment 1 "a.txt" "text/plain" "" [1, 2], .commitDraft 1 ann date]
    ∃ e store', Attachments.receive (attachmentSinks 1)
        ((store.archive.attachments 1).map fun a => a.info.slot) ⟨List.replicate 32 0⟩ .gzip {} 0 []
        store = (.error e, store') ∧
      store'.Orderly ∧ store'.Sound ∧ ∃ encoded, store'.archive.encodeStored 1 = .ok encoded := by
  intro ann bob date store
  have sent : store.Orderly := Orderly.empty.afterAll (by simp [Request.IsOrderly])
  have received : Attachments.receive (attachmentSinks 1)
      ((store.archive.attachments 1).map fun a => a.info.slot) ⟨List.replicate 32 0⟩ .gzip {} 0 []
      store = (.error (.integrity .streamTooShort), store) := rfl
  have distinct : store.HasPositions 1 := fun _ => show 1 ≤ UInt32.size by decide
  have orderly : store.Orderly := sent.receive distinct received
  obtain ⟨sound, _, encodes⟩ := orderly_store_sound orderly
  refine ⟨_, store, received, orderly, sound, ?_⟩
  cases written : store.archive.encodeStored 1 with
  | ok encoded => exact ⟨encoded, rfl⟩
  | error e =>
    rcases encodes 1 e written with ⟨missing, _⟩ | ⟨kept, _⟩
    · exact nomatch missing
    · exact absurd rfl kept

end Store

end SealedMail
