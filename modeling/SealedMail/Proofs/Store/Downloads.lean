import SealedMail.Proofs.Attachment.RoundTrip
import SealedMail.Proofs.Store.Delivery
import SealedMail.Proofs.Store.Received

/-!
# Attachments downloaded into a store

What receiving the attachments of a message does to a store, and why it fails. However it ends, the
attachments from the first one on have their slices of the data, each of the size and the digest
that it declares, and nothing else in the store has changed (`attachments_received_in_order`). It
fails for the data that came, which makes the message a bad one, or because the index that is kept
and this data do not agree, which is told as an inconsistency (`refused_for_data_or_index`,
`refused_for_short_data`).
-/

namespace SealedMail.Store

open SinkFactory

variable {store store' : Store} {id : UInt64} {key : SymmetricKey} {mode : Compression}
  {limits : Limits} {chunkSize : Nat} {pieces : List Bytes}

/-! ## The index of a message -/

/-- The store has a message with this number, and its attachments are described like this. -/
structure Lists (store : Store) (id : UInt64) (infos : List AttachmentInfo) : Prop where
  message : ∃ row, store.messages.get? id = some row
  attachments : ∃ list, store.attachments.get? id = some list ∧ list.map Attachment.info = infos

/-- The request saves a message under this number. -/
def Request.Saves (id : UInt64) : Request → Prop
  | .saveMessage message _ => message.record.id = id
  | _ => False

variable {infos : List AttachmentInfo} {request : Request} {slot : Slot} {slots : List Slot}
  {part data : Bytes} {e : MailError}

/-- A payload that comes in changes no description. -/
lemma map_info_fillSlot {index : UInt32} {content : Bytes} {list list' : List Attachment}
    (filled : fillSlot index content list = some list') :
    list'.map Attachment.info = list.map Attachment.info := by
  induction list generalizing list' with
  | nil => cases filled
  | cons a rest ih =>
    rw [fillSlot] at filled
    split at filled
    next =>
      cases filled
      rfl
    next =>
      obtain ⟨rest', filled', rfl⟩ := Option.map_eq_some_iff.mp filled
      rw [List.map_cons, List.map_cons, ih filled']

/-- A payload comes in wherever its position is listed. -/
lemma exists_fillSlot {index : UInt32} {list : List Attachment}
    (listed : index ∈ list.map fun a => a.info.index) (content : Bytes) :
    ∃ list', fillSlot index content list = some list' := by
  induction list with
  | nil => cases listed
  | cons a rest ih =>
    rw [fillSlot]
    by_cases here : a.info.index = index
    · rw [if_pos here]
      exact ⟨_, rfl⟩
    · rw [List.map_cons] at listed
      rcases List.mem_cons.mp listed with same | later
      · exact absurd same.symm here
      · obtain ⟨rest', filled⟩ := ih later
        rw [if_neg here, filled]
        exact ⟨_, rfl⟩

/-- Only another message that is saved under the number of a message changes what its attachments
are described like. -/
theorem Step.lists (step : Step store request store') (others : ¬ request.Saves id)
    (lists : store.Lists id infos) : store'.Lists id infos := by
  obtain ⟨⟨row, found⟩, list, kept, described⟩ := lists
  cases step with
  | @commitDraft _ _ _ _ given _ next =>
    have other : id ≠ given := UInt64.ne_of_lt (Table.lt_of_nextId? next found)
    rw [keepMessage_eq]
    refine ⟨⟨row, ?_⟩, list, ?_, described⟩
    · rw [Table.get?_put, if_neg other]
      exact found
    · rw [Table.get?_put, if_neg other]
      exact kept
  | saveMessage =>
    rw [Store.saveMessage, keepMessage_eq]
    refine ⟨⟨row, ?_⟩, list, ?_, described⟩
    · rw [Table.get?_put, if_neg (Ne.symm others), found]
    · rw [Table.get?_put, if_neg (Ne.symm others), kept]
  | @setFlags marked =>
    refine ⟨?_, list, kept, described⟩
    rw [Table.get?_put]
    split
    next => exact ⟨_, rfl⟩
    next => exact ⟨row, found⟩
  | @closeSink check payload list' _ filled =>
    refine ⟨⟨row, found⟩, ?_⟩
    rw [Table.get?_put]
    split
    next same =>
      subst same
      rw [archive_attachments, kept, Option.getD_some] at filled
      exact ⟨list', rfl, (map_info_fillSlot filled).trans described⟩
    next => exact ⟨list, kept, described⟩
  | _ => exact ⟨⟨row, found⟩, list, kept, described⟩

/-- The index of a message stays, whatever is asked but another message under its number. -/
lemma Lists.afterAll {requests : List Request} (lists : store.Lists id infos)
    (others : ∀ request ∈ requests, ¬ request.Saves id) :
    (store.afterAll requests).Lists id infos := by
  induction requests generalizing store with
  | nil => exact lists
  | cons request rest ih =>
    obtain ⟨first, later⟩ := List.forall_mem_cons.mp others
    exact ih ((step_after store request).lists first lists) later

/-- A message that is saved has the index that came with it. -/
lemma lists_saveMessage (store : Store) (message : DecodedMessage) (conversation : Conversation) :
    (store.saveMessage message conversation).Lists message.record.id message.attachments := by
  obtain ⟨⟨row, received, found, _⟩, kept⟩ := holds_saveMessage store message conversation
  refine ⟨⟨_, found⟩, _, kept, ?_⟩
  rw [List.map_map]
  exact List.map_id _

/-- A payload that is delivered leaves the index as it is. -/
lemma Lists.delivered (lists : store.Lists id infos)
    (delivered : (attachmentSinks id).Delivered slot pieces store store') :
    store'.Lists id infos := by
  obtain ⟨found, list, kept, described⟩ := lists
  obtain ⟨_, list', filled, rfl⟩ := delivered_attachmentSinks delivered
  rw [archive_attachments, kept, Option.getD_some] at filled
  refine ⟨found, list', ?_, (map_info_fillSlot filled).trans described⟩
  rw [Table.get?_put, if_pos rfl]

/-- A sink refuses a payload of the right length only for its digest. -/
lemma Lists.of_refuses (lists : store.Lists id infos)
    (listed : slot.index ∈ infos.map AttachmentInfo.index)
    (refuses : (attachmentSinks id).Refuses slot part e store store') :
    part.length = slot.size.toNat ∧ ¬ slot.Names part ∧
      e = .integrity (.hashMismatch slot.index) := by
  cases refuses with
  | make made => cases made
  | write _ _ written => cases written
  | @close pieces _ own _ _ _ begun whole full closed =>
    subst whole
    have checks := (Begun.of_checked begun).2
    obtain ⟨rfl, payload⟩ := begun_attachmentSinks begun
    obtain ⟨check, _⟩ := own
    cases payload
    rw [close_attachmentSinks] at closed
    by_cases right : check.isRight = true
    · obtain ⟨_, list, kept, rfl⟩ := lists
      rw [List.map_map] at listed
      obtain ⟨list', filled⟩ := exists_fillSlot listed pieces.reverse.reverse.flatten
      rw [if_pos right, storePayload, archive_attachments, kept, Option.getD_some, filled] at closed
      cases closed
    · rw [if_neg right] at closed
      cases closed
      exact ⟨full, mt checks.isRight_iff.mpr right, by rw [checks.index]⟩

/-- What stops a run in the middle is a byte too many, or a payload with another digest. -/
lemma Lists.of_stops (lists : store.Lists id infos)
    (listed : ∀ slot ∈ slots, slot.index ∈ infos.map AttachmentInfo.index)
    (stops : Splitter.Stops (attachmentSinks id) slots part e store store') :
    (e = .integrity .streamTooLong ∧ totalSize slots < part.length) ∨
      ∃ slice ∈ slices slots part, slice.2.length = slice.1.size.toNat ∧
        ¬ slice.1.Names slice.2 ∧ e = .integrity (.hashMismatch slice.1.index) := by
  induction stops with
  | tooLong some => exact .inl ⟨rfl, List.length_pos_iff.mpr some⟩
  | refused refuses =>
    obtain ⟨here, _⟩ := List.forall_mem_cons.mp listed
    exact .inr ⟨_, List.mem_cons_self, lists.of_refuses here refuses⟩
  | filled delivered full _ ih =>
    obtain ⟨_, later⟩ := List.forall_mem_cons.mp listed
    rw [slices_cons_append full, List.length_append, full, totalSize_cons]
    rcases ih (lists.delivered delivered) later with ⟨tooLong, long⟩ | ⟨slice, mem, mismatch⟩
    · exact .inl ⟨tooLong, Nat.add_lt_add_left long _⟩
    · exact .inr ⟨slice, List.mem_cons_of_mem _ mem, mismatch⟩

/-- Data that ends within a payload is told to be too short, if no whole payload has another digest
than declared. The payloads before it are delivered. -/
lemma Lists.of_ends_short (lists : store.Lists id infos) (full : List Slot) (slot : Slot)
    (rest : List Slot) {result : Except MailError Unit}
    (listed : ∀ x ∈ full ++ slot :: rest, x.index ∈ infos.map AttachmentInfo.index)
    (named : ∀ slice ∈ slices (full ++ slot :: rest) data,
      slice.2.length = slice.1.size.toNat → slice.1.Names slice.2)
    (room : totalSize full ≤ data.length) (short : data.length < totalSize full + slot.size.toNat)
    (ends : Splitter.Ends (attachmentSinks id) (full ++ slot :: rest) data store result store') :
    result = .error (.integrity .streamTooShort) ∧
      (attachmentSinks id).Delivers (slices full data) store store' := by
  have total : totalSize (full ++ slot :: rest) = totalSize full + totalSize (slot :: rest) := by
    rw [totalSize, List.map_append, List.sum_append]
    rfl
  rw [totalSize_cons] at total
  cases ends with
  | delivered whole _ => omega
  | cutShort _ cut =>
    obtain ⟨full', _, _, split, room', short', _, _, _, delivers, begun, _⟩ := cut.exists_open
    obtain rfl := eq_of_totalSize_lt split room short room' short'
    obtain ⟨rfl, _⟩ := begun_attachmentSinks begun
    exact ⟨rfl, delivers⟩
  | stopped begins stops =>
    rcases lists.of_stops listed stops with ⟨_, long⟩ | ⟨slice, mem, whole, wrong, _⟩
    · have length := begins.length_le
      omega
    · exact absurd (named slice (mem_slices_of_begins begins mem whole) whole) wrong

/-! ## What changes -/

/-- The first attachments of a message get their slices of the data, and the others keep what they
had. -/
lemma delivered_in_order {attachments : List Attachment} {full rest : List Slot} {data : Bytes}
    (kept : store.attachments.get? id = some attachments) (numbered : Numbered attachments)
    (split : (attachments.map fun a => a.info.slot) = full ++ rest)
    (room : totalSize full ≤ data.length)
    (delivers : (attachmentSinks id).Delivers (slices full data) store store') :
    ∃ filled : List Attachment,
      filled.map Attachment.info = (attachments.take full.length).map Attachment.info ∧
      (filled.map fun a => (a.info.slot, a.content)) = slices full data ∧
      (∀ a ∈ filled, a.content.length = a.info.size.toNat ∧ a.info.slot.Names a.content) ∧
      store' = { store with
        attachments := store.attachments.put id (filled ++ attachments.drop full.length) } := by
  have first : ((attachments.take full.length).map fun a => a.info.slot) = full := by
    rw [List.map_take, split, List.take_left]
  have whole : [] ++ (attachments.take full.length ++ attachments.drop full.length) =
      attachments := List.take_append_drop _ _
  rw [← first] at delivers
  obtain ⟨filled, described, contents, digests, stored⟩ :=
    delivers_attachmentSinks (whole ▸ kept) (whole.symm ▸ numbered.nodup) delivers
  rw [first] at contents
  refine ⟨filled, described, contents, fun a ha => ⟨?_, digests a ha⟩, stored⟩
  exact length_of_contents room contents a ha

/-- Attachments are delivered one by one and in order. A message has attachments at the positions
from 0 on, and receiving them ends, with or without an error. Then the first ones, which are all if
there was no error, have consecutive slices of the data that the ciphertext gave, of the sizes and
with the digests that they declare, the others have what they had before, and all else in the store
is as it was. A ciphertext that can be decrypted and expanded gave all of its data. -/
theorem attachments_received_in_order {attachments : List Attachment}
    (kept : store.attachments.get? id = some attachments) (numbered : Numbered attachments)
    {result : Except MailError Unit}
    (received : Attachments.receive (attachmentSinks id) (attachments.map fun a => a.info.slot) key
      mode limits chunkSize pieces store = (result, store')) :
    let data := (Attachments.expand key mode limits chunkSize pieces.flatten).1.flatten
    (∃ (k : Nat) (filled : List Attachment), k ≤ attachments.length ∧
      filled.map Attachment.info = (attachments.take k).map Attachment.info ∧
      (filled.map fun a => (a.info.slot, a.content)) =
        slices ((attachments.take k).map fun a => a.info.slot) data ∧
      (∀ a ∈ filled, a.content.length = a.info.size.toNat ∧ a.info.slot.Names a.content) ∧
      store' = { store with
        attachments := store.attachments.put id (filled ++ attachments.drop k) } ∧
      (result = .ok () → k = attachments.length)) ∧
    ∀ stream whole, pieces.flatten.length ≤ limits.attachments → pieces.flatten ≠ [] →
      Attachments.decrypt key pieces.flatten = .ok stream → mode.decompress stream = .ok whole →
      data = whole := by
  intro data
  refine ⟨?_, fun stream whole fits nonempty decrypted decompressed => ?_⟩
  · obtain ⟨full, rest, split, room, delivers, all⟩ :=
      (Attachments.ends_of_receive received).exists_full (withholds_attachmentSinks id)
    obtain ⟨filled, described, contents, correct, stored⟩ :=
      delivered_in_order kept numbered split room delivers
    have lengths := congrArg List.length split
    rw [List.length_map, List.length_append] at lengths
    have first : ((attachments.take full.length).map fun a => a.info.slot) = full := by
      rw [List.map_take, split, List.take_left]
    refine ⟨full.length, filled, by omega, described, first.symm ▸ contents, correct, stored, ?_⟩
    intro ok
    rw [all ok, List.length_nil] at lengths
    exact lengths.symm
  · obtain ⟨chunks, expanded, complete⟩ :=
      Attachments.expand_of_decompress fits nonempty decrypted decompressed chunkSize
    change (Attachments.expand _ _ _ _ _).1.flatten = whole
    rw [expanded]
    exact complete

/-- Two files of two and of three bytes, and a ciphertext of which the data ends behind the first
byte of the second file. The first file is delivered, and the second one is as empty as before. -/
theorem attachments_received_in_order_short :
    let ann : Address := ⟨"ann", "example.org", by decide, by decide⟩
    let date : DateTime := ⟨⟨2024, 2, 29, 12, 30, 0, 0, 60⟩, by decide⟩
    let first := describe 0 "a.txt" "text/plain" "" [1, 2]
    let second := describe 1 "b.txt" "text/plain" "" [3, 4, 5]
    let key : SymmetricKey := ⟨List.replicate 32 0⟩
    let message : DecodedMessage := ⟨⟨7, 0, date, date, ann, "Hi", "", key, 1, false, false, 4⟩,
      ⟨ann, "Ann", "", none⟩, .ofList [ann], [first, second], []⟩
    let store := Store.empty.saveMessage message ⟨1, .ofList [ann]⟩
    let ciphertext := Gcm.encrypt key.bytes SymmetricKey.attachmentsIv [1, 2, 3]
    ∃ (store' : Store) (k : Nat) (filled : List Attachment),
      Attachments.receive (attachmentSinks 7) [first.slot, second.slot] key .none {} 0
        [ciphertext.take 1, ciphertext.drop 1] store =
          (.error (.integrity .streamTooShort), store') ∧
      k ≤ 2 ∧
      (filled.map fun a => (a.info.slot, a.content)) =
        slices ([first.slot, second.slot].take k) [1, 2, 3] ∧
      (∀ a ∈ filled, a.content.length = a.info.size.toNat ∧ a.info.slot.Names a.content) ∧
      store' = { store with attachments :=
        store.attachments.put 7 (filled ++ [⟨first, []⟩, ⟨second, []⟩].drop k) } ∧
      store'.attachments.get? 7 = some [⟨first, [1, 2]⟩, ⟨second, []⟩] := by
  intro ann date first second key message store ciphertext
  have kept : store.attachments.get? 7 = some [⟨first, []⟩, ⟨second, []⟩] := rfl
  have lists : store.Lists 7 [first, second] := lists_saveMessage _ message _
  have numbered : Numbered [⟨first, []⟩, ⟨second, []⟩] := by
    intro i h
    cases i with
    | zero => rfl
    | succ i =>
      obtain rfl := Nat.lt_one_iff.mp (Nat.lt_of_succ_lt_succ h)
      rfl
  have whole : [ciphertext.take 1, ciphertext.drop 1].flatten = ciphertext := by
    rw [List.flatten_cons, List.flatten_singleton, List.take_append_drop]
  obtain ⟨result, store', received, data, ends⟩ :=
    Attachments.receive_encrypted (attachmentSinks 7) [first.slot, second.slot]
      (List.cons_ne_nil 1 [2, 3]) (rfl : key.bytes.length = SymmetricKey.size)
      (show 3 + Gcm.tagSize ≤ ({} : Limits).attachments by decide) whole 0 store
  obtain ⟨⟨k, filled, bound, _, contents, correct, stored, _⟩, _⟩ :=
    attachments_received_in_order kept numbered received
  rw [List.map_take, data] at contents
  -- the first slice is the first file, and the second one is not whole
  have named : ∀ slice ∈ slices [first.slot, second.slot] [1, 2, 3],
      slice.2.length = slice.1.size.toNat → slice.1.Names slice.2 :=
    List.forall_mem_cons.mpr ⟨fun _ => names_slot_describe _ _ _ _ _,
      List.forall_mem_singleton.mpr fun whole => absurd whole (by decide)⟩
  obtain ⟨rfl, delivers⟩ := lists.of_ends_short [first.slot] second.slot []
    (List.forall_mem_cons.mpr ⟨.head _, List.forall_mem_singleton.mpr (.tail _ (.head _))⟩) named
    (by decide) (by decide) ends
  refine ⟨store', k, filled, received, bound, contents, correct, stored, ?_⟩
  obtain ⟨pieces, store₁, content, delivered, later⟩ := Delivers.of_cons delivers
  cases later
  obtain ⟨_, list, filled, rfl⟩ := delivered_attachmentSinks delivered
  rw [archive_attachments, kept, content] at filled
  cases filled
  rw [Table.get?_put, if_pos rfl]
  rfl

/-! ## Why it fails -/

/-- Receiving the attachments of a message fails for what came. A message was saved, and whatever
was asked of the store since, no other message was saved under its number. If an error comes of
receiving its attachments, either the data is bad, or the index of the message does not describe the
data: it is longer or shorter than all attachments together, or the slice of one attachment does not
have the digest that the index declares. -/
theorem refused_for_data_or_index {message : DecodedMessage} {conversation : Conversation}
    {requests : List Request} (others : ∀ request ∈ requests, ¬ request.Saves message.record.id)
    (refused : Attachments.receive (attachmentSinks message.record.id)
      (message.attachments.map AttachmentInfo.slot) key mode limits chunkSize pieces
      ((store.saveMessage message conversation).afterAll requests) = (.error e, store')) :
    let slots := message.attachments.map AttachmentInfo.slot
    let data := (Attachments.expand key mode limits chunkSize pieces.flatten).1.flatten
    e.isBadMessage = true ∨
      (e = .integrity .streamTooLong ∧ totalSize slots < data.length) ∨
      (e = .integrity .streamTooShort ∧ data.length < totalSize slots) ∨
      ∃ slice ∈ slices slots data, slice.2.length = slice.1.size.toNat ∧
        ¬ slice.1.Names slice.2 ∧ e = .integrity (.hashMismatch slice.1.index) := by
  intro slots data
  have lists := (lists_saveMessage store message conversation).afterAll others
  have listed : ∀ slot ∈ slots, slot.index ∈ message.attachments.map AttachmentInfo.index := by
    intro slot mem
    obtain ⟨info, here, rfl⟩ := List.mem_map.mp mem
    exact List.mem_map_of_mem here
  cases Attachments.ends_of_receive refused with
  | broken failed _ => exact .inl (Attachments.isBadMessage_of_expand failed)
  | split ends =>
    cases ends with
    | cutShort short _ => exact .inr (.inr (.inl ⟨rfl, short⟩))
    | stopped begins stops =>
      rcases lists.of_stops listed stops with ⟨tooLong, long⟩ | ⟨slice, mem, whole, mismatch⟩
      · exact .inr (.inl ⟨tooLong, Nat.lt_of_lt_of_le long begins.length_le⟩)
      · exact .inr (.inr (.inr ⟨slice, mem_slices_of_begins begins mem whole, whole, mismatch⟩))

/-- A message with a file of two bytes, and the ciphertext of a single one. Marking the message as
read does not change what is declared. -/
theorem refused_for_data_or_index_short :
    let ann : Address := ⟨"ann", "example.org", by decide, by decide⟩
    let date : DateTime := ⟨⟨2024, 2, 29, 12, 30, 0, 0, 60⟩, by decide⟩
    let file := describe 0 "a.txt" "text/plain" "" [1, 2]
    let key : SymmetricKey := ⟨List.replicate 32 0⟩
    let message : DecodedMessage := ⟨⟨7, 0, date, date, ann, "Hi", "", key, 1, false, false, 4⟩,
      ⟨ann, "Ann", "", none⟩, .ofList [ann], [file], []⟩
    let store :=
      (Store.empty.saveMessage message ⟨1, .ofList [ann]⟩).afterAll [.setFlags 7 true false]
    let ciphertext := Gcm.encrypt key.bytes SymmetricKey.attachmentsIv [1]
    ∃ store',
      Attachments.receive (attachmentSinks 7) [file.slot] key .none {} 0 [ciphertext] store =
        (.error (.integrity .streamTooShort), store') ∧
      (Attachments.expand key .none {} 0 [ciphertext].flatten).1.flatten.length <
        totalSize [file.slot] := by
  intro ann date file key message store ciphertext
  have others : ∀ request ∈ [Request.setFlags 7 true false], ¬ request.Saves message.record.id :=
    List.forall_mem_singleton.mpr not_false
  have lists : store.Lists 7 [file] := (lists_saveMessage _ message _).afterAll others
  obtain ⟨result, store', received, data, ends⟩ :=
    Attachments.receive_encrypted (attachmentSinks 7) [file.slot] (List.cons_ne_nil 1 [])
      (rfl : key.bytes.length = SymmetricKey.size)
      (show 1 + Gcm.tagSize ≤ ({} : Limits).attachments by decide)
      (List.flatten_singleton : [ciphertext].flatten = ciphertext) 0 store
  obtain ⟨rfl, _⟩ := lists.of_ends_short [] file.slot [] (List.forall_mem_singleton.mpr (.head _))
    (List.forall_mem_singleton.mpr fun whole => absurd whole (by decide)) (by decide) (by decide)
    ends
  refine ⟨store', received, ?_⟩
  rcases refused_for_data_or_index others received with
    bad | ⟨tooLong, _⟩ | ⟨_, short⟩ | ⟨_, _, _, _, mismatch⟩
  · cases bad
  · cases tooLong
  · exact short
  · cases mismatch

/-- An index that declares more than what came is told as an inconsistency, and not as a bad
message. Ann sends Bob a message that declares a file of two bytes, and no ciphertext for it. Bob
reads the message and saves it, and receiving the file fails with data that is too short for the
index. -/
theorem refused_for_short_data :
    let ann : Address := ⟨"ann", "example.org", by decide, by decide⟩
    let bob : Address := ⟨"bob", "example.org", by decide, by decide⟩
    let date : DateTime := ⟨⟨2024, 2, 29, 12, 30, 0, 0, 60⟩, by decide⟩
    let file := describe 0 "a.txt" "text/plain" "" [1, 2]
    let body : Body := ⟨⟨ann, "Ann", "", none⟩, .ofList [bob], date, "Hello", "Bye", [file]⟩
    let opened : OpenedMessage := ⟨7, 0, date, ⟨List.replicate 32 0⟩, ⟨4, [], body.toBytes⟩,
      ⟨[], ⟨List.replicate 32 0⟩⟩⟩
    let decoded : DecodedMessage := ⟨
      opened.record (body.receivedBy bob) ⟨MessageState.latestVersion, false, false, []⟩,
      body.sender, body.participantsFor bob, [file], []⟩
    ∃ conversation store,
      opened.decode bob .none false (directory .empty) = .ok decoded ∧
      Store.empty.conversationOf decoded.participants = some (conversation, store) ∧
      (∃ store', Attachments.receive (attachmentSinks decoded.record.id)
        (decoded.attachments.map AttachmentInfo.slot) decoded.record.key .none {} 0 []
        (store.saveMessage decoded conversation) = (.error (.integrity .streamTooShort), store')) ∧
      (MailError.integrity .streamTooShort).isBadMessage = false := by
  intro ann bob date file body opened decoded
  have described : file.IsReadable := isReadable_describe 0 (by decide) (by decide) "" [1, 2]
  have readable : body.IsReadable :=
    ⟨by decide, ⟨bob, .head _⟩, by decide, List.forall_mem_singleton.mpr described, by decide⟩
  have data : opened.content.data = body.toBytes := by dsimp only [opened]
  have other : ann ≠ bob := by decide
  have read : opened.decode bob .none false (directory .empty) = .ok decoded :=
    opened.decode_toBytes data readable (if_neg other) _
  obtain ⟨conversation, store, resolved⟩ : ∃ conversation store,
      Store.empty.conversationOf decoded.participants = some (conversation, store) :=
    ⟨_, _, conversationOf_empty _⟩
  exact ⟨conversation, store, read, resolved, ⟨store.saveMessage decoded conversation, rfl⟩, rfl⟩

end SealedMail.Store
