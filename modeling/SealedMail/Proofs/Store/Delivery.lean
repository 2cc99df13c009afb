import SealedMail.Proofs.Attachment.Checking
import SealedMail.Proofs.Attachment.Splitter
import SealedMail.Proofs.Store.Keeping

/-!
# Attachments delivered to a store

What the sinks of a store do to it. A sink collects its payload, and the store is changed only when
the sink is closed: then the payload is at the first attachment with the position of the sink
(`delivered_attachmentSinks`). The positions of a message are all different, so that each payload
comes to its own attachment, and attachments that follow each other in a message get the slices of
the stream that is delivered to them (`delivers_attachmentSinks`).
-/

namespace SealedMail.Store

open SinkFactory

variable {store store' : Store} {id : UInt64} {slot : Slot} {pieces : List Bytes}
  {message : StoredMessage} {sender : Sender} {attachments : List Attachment}

/-! ## One payload -/

/-- An open sink has its payload, and the store is as it was. -/
lemma begun_attachmentSinks {own : DigestCheck × IncomingPayload}
    (begun : (attachmentSinks id).Begun slot pieces store own store') :
    store' = store ∧ own.2 = ⟨id, slot.index, pieces.reverse⟩ := by
  induction begun with
  | make made =>
    cases made
    exact ⟨rfl, rfl⟩
  | @write pieces b _ own _ _ _ _ written ih =>
    obtain ⟨check, payload⟩ := own
    obtain ⟨rfl, same⟩ := ih
    cases same
    cases written
    exact ⟨rfl, by rw [List.reverse_append, List.reverse_singleton, List.singleton_append]⟩

/-- The store is not changed before a sink is closed. -/
lemma withholds_attachmentSinks (id : UInt64) : (attachmentSinks id).Withholds where
  make made := by
    cases made
    rfl
  write written := by
    cases written
    rfl
  close {own store e own' store'} closed := by
    obtain ⟨check, payload⟩ := own
    rw [close_attachmentSinks] at closed
    split at closed
    next =>
      split at closed
      next => cases closed
      next =>
        cases closed
        rfl
    next =>
      cases closed
      rfl

/-- A payload that was delivered has the digest of its slot, and is at its place. -/
lemma delivered_attachmentSinks
    (delivered : (attachmentSinks id).Delivered slot pieces store store') :
    slot.Names pieces.flatten ∧ ∃ list,
      fillSlot slot.index pieces.flatten (store.archive.attachments id) = some list ∧
      store' = { store with attachments := store.attachments.put id list } := by
  refine ⟨(Delivered.of_checked delivered).2, ?_⟩
  obtain ⟨⟨check, payload⟩, store₁, own', begun, closed⟩ := delivered
  obtain ⟨rfl, same⟩ := begun_attachmentSinks begun
  cases same
  rw [close_attachmentSinks] at closed
  split at closed
  next =>
    split at closed
    next stored =>
      cases closed
      obtain ⟨list, filled, rfl⟩ := of_storePayload stored
      rw [List.reverse_reverse] at filled
      exact ⟨list, filled, rfl⟩
    next => cases closed
  next => cases closed

/-- A payload goes to the first attachment with its position. -/
lemma fillSlot_append {index : UInt32} {before : List Attachment}
    (others : ∀ a ∈ before, a.info.index ≠ index) {attachment : Attachment}
    (here : attachment.info.index = index) (content : Bytes) (rest : List Attachment) :
    fillSlot index content (before ++ attachment :: rest) =
      some (before ++ { attachment with content } :: rest) := by
  induction before with
  | nil => rw [List.nil_append, fillSlot, if_pos here, List.nil_append]
  | cons first before ih =>
    obtain ⟨ne, others⟩ := List.forall_mem_cons.mp others
    rw [List.cons_append, fillSlot, if_neg ne, ih others, Option.map_some, List.cons_append]

/-! ## All payloads of a message -/

/-- The attachments are at the positions that they tell. -/
def Numbered (attachments : List Attachment) : Prop :=
  ∀ i (h : i < attachments.length), attachments[i].info.index.toNat = i

/-- Attachments at their positions have different ones. -/
lemma Numbered.nodup (numbered : Numbered attachments) :
    (attachments.map fun a => a.info.index).Nodup := by
  refine List.pairwise_map.mpr (List.pairwise_iff_getElem.mpr ?_)
  intro i j hi hj before same
  have positions := congrArg UInt32.toNat same
  rw [numbered i hi, numbered j hj] at positions
  exact Nat.ne_of_lt before positions

/-- The attachments tell their positions as numbers of 32 bits, which begin anew after the last
one. -/
def Positioned (attachments : List Attachment) : Prop :=
  ∀ i (h : i < attachments.length), attachments[i].info.index = UInt32.ofNat i

/-- Attachments are at their positions, if there are not too many. -/
lemma Positioned.numbered (positioned : Positioned attachments)
    (few : attachments.length ≤ UInt32.size) : Numbered attachments := by
  intro i h
  rw [positioned i h]
  exact UInt32.toNat_ofNat_of_lt' (Nat.lt_of_lt_of_le h few)

/-- Numbered descriptions make attachments that tell their positions. -/
lemma positioned_of_numbered {infos : List AttachmentInfo}
    (numbered : AttachmentInfo.numbered 0 infos = infos) :
    Positioned (infos.map fun info => ⟨info, []⟩) := by
  intro i h
  rw [List.length_map] at h
  rw [List.getElem_map]
  conv_lhs => rw [← List.getElem_of_eq numbered (numbered.symm ▸ h)]
  simp [AttachmentInfo.numbered]

/-- A stream that is delivered to some attachments in a row is their payloads, one after the other.
The attachments before and after them, and all else in the store, stay as they are. -/
theorem delivers_attachmentSinks {before todo rest : List Attachment} {stream : Bytes}
    (kept : store.attachments.get? id = some (before ++ (todo ++ rest)))
    (distinct : ((before ++ (todo ++ rest)).map fun a => a.info.index).Nodup)
    (delivers : (attachmentSinks id).Delivers (slices (todo.map fun a => a.info.slot) stream)
      store store') :
    ∃ filled : List Attachment, filled.map Attachment.info = todo.map Attachment.info ∧
      (filled.map fun a => (a.info.slot, a.content)) =
        slices (todo.map fun a => a.info.slot) stream ∧
      (∀ a ∈ filled, a.info.slot.Names a.content) ∧
      store' = { store with
        attachments := store.attachments.put id (before ++ (filled ++ rest)) } := by
  induction todo generalizing before stream store with
  | nil =>
    cases delivers
    refine ⟨[], rfl, rfl, List.forall_mem_nil _, ?_⟩
    rw [Table.put_get? kept]
  | cons a todo ih =>
    obtain ⟨pieces, store₁, content, delivered, later⟩ := Delivers.of_cons delivers
    obtain ⟨named, list, put, rfl⟩ := delivered_attachmentSinks delivered
    -- the payload comes to the first of the attachments, as none before has its position
    have others : ∀ x ∈ before, x.info.index ≠ a.info.index := by
      rw [List.map_append] at distinct
      intro x hx
      exact (List.nodup_append.mp distinct).2.2 _ (List.mem_map_of_mem hx) _ List.mem_cons_self
    rw [archive_attachments, kept, Option.getD_some, List.cons_append] at put
    obtain rfl := Option.some.inj
      ((fillSlot_append others rfl pieces.flatten (todo ++ rest)).symm.trans put)
    have indices : (before ++ a :: (todo ++ rest)).map (fun a => a.info.index) =
        (before ++ [{ a with content := pieces.flatten }] ++ (todo ++ rest)).map
          (fun a : Attachment => a.info.index) := by simp
    have kept₁ : (store.attachments.put id
        (before ++ { a with content := pieces.flatten } :: (todo ++ rest))).get? id =
          some (before ++ [{ a with content := pieces.flatten }] ++ (todo ++ rest)) := by
      rw [Table.get?_put, if_pos rfl, List.append_cons]
    obtain ⟨filled, described, contents, digests, rfl⟩ := ih kept₁ (indices ▸ distinct) later
    refine ⟨{ a with content := pieces.flatten } :: filled, ?_, ?_,
      List.forall_mem_cons.mpr ⟨named, digests⟩, ?_⟩
    · rw [List.map_cons, List.map_cons, described]
    · rw [List.map_cons, List.map_cons, slices, contents, content]
    · rw [Table.put_put, List.append_assoc]
      rfl

/-- Payloads that are slices have the lengths that they declare. -/
lemma length_of_contents {slots : List Slot} {stream : Bytes} {filled : List Attachment}
    (room : totalSize slots ≤ stream.length)
    (contents : (filled.map fun a => (a.info.slot, a.content)) = slices slots stream) :
    ∀ a ∈ filled, a.content.length = a.info.size.toNat := by
  intro a ha
  exact length_of_mem_slices room _ (contents ▸ List.mem_map_of_mem ha)

/-- A message is kept with whatever attachments it is given. -/
lemma Holds.with_attachments (holds : store.Holds message sender attachments)
    (list : List Attachment) :
    { store with attachments := store.attachments.put message.id list }.Holds message sender
      list := by
  obtain ⟨⟨row, received, found, shows⟩, _⟩ := holds
  refine ⟨⟨row, received, found, shows.of_grows (.refl _)⟩, ?_⟩
  rw [Table.get?_put, if_pos rfl]

/-- After a run in which no call failed, the attachments of a message are the stream. -/
theorem Holds.of_run {infos : List AttachmentInfo} {pieces : List Bytes}
    (holds : store.Holds message sender (infos.map fun info => ⟨info, []⟩))
    (numbered : AttachmentInfo.numbered 0 infos = infos) (few : infos.length ≤ UInt32.size)
    (completed : Splitter.run (attachmentSinks message.id) (infos.map AttachmentInfo.slot) pieces
      store = (none, store')) :
    ∃ filled : List Attachment, filled.map Attachment.info = infos ∧
      filled.flatMap Attachment.content = pieces.flatten ∧
      (∀ a ∈ filled, a.info.size.toNat = a.content.length) ∧
      store'.Holds message sender filled ∧ store'.conversations = store.conversations := by
  obtain ⟨length, delivers⟩ := Splitter.delivers_of_run completed
  have distinct := ((positioned_of_numbered numbered).numbered (by simpa using few)).nodup
  have slots : infos.map AttachmentInfo.slot =
      (infos.map fun info => Attachment.mk info []).map fun a => a.info.slot := by
    rw [List.map_map]
    rfl
  rw [slots] at length delivers
  have kept : store.attachments.get? message.id =
      some ([] ++ ((infos.map fun info => ⟨info, []⟩) ++ [])) := by simp [holds.attachments]
  obtain ⟨filled, described, contents, _, rfl⟩ :=
    delivers_attachmentSinks kept (by simpa using distinct) delivers
  refine ⟨filled, ?_, ?_, ?_, ?_, rfl⟩
  · rw [described, List.map_map]
    exact List.map_id _
  · have parts := congrArg (List.flatMap Prod.snd) contents
    rw [List.flatMap_map, flatMap_slices, ← length, List.take_length] at parts
    exact parts
  · intro a ha
    exact (length_of_contents length.ge contents a ha).symm
  · rw [List.nil_append, List.append_nil]
    exact holds.with_attachments filled

end SealedMail.Store
