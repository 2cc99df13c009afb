import SealedMail.Outgoing.Encoding
import SealedMail.Proofs.Results

/-!
# Encoded messages

When a message can be encoded, and as what. Its conversation must be there, and its attachments must
have the lengths that they declare (`Attachments.concat_eq_ok`); then the body names the members of
the conversation as recipients, and the payloads stand in one stream (`Archive.encode_eq_ok`).
-/

namespace SealedMail

namespace Attachments

/-- Attachments of the lengths that they declare are put together. -/
lemma concat_eq {attachments : List Attachment}
    (sizes : ∀ a ∈ attachments, a.info.size.toNat = a.content.length) :
    concat attachments =
      .ok (attachments.map Attachment.info, attachments.flatMap Attachment.content) := by
  induction attachments with
  | nil => rfl
  | cons attachment rest ih =>
    obtain ⟨first, later⟩ := List.forall_mem_cons.mp sizes
    rw [concat, Attachment.checkSize, if_pos first, ih later]
    rfl

/-- Attachments that were put together have the lengths that they declare. -/
lemma sizes_of_concat {attachments : List Attachment} {put : List AttachmentInfo × Bytes}
    (h : concat attachments = .ok put) :
    ∀ a ∈ attachments, a.info.size.toNat = a.content.length := by
  induction attachments generalizing put with
  | nil => exact nofun
  | cons attachment rest ih =>
    obtain ⟨_, checked, h⟩ := bind_eq_ok.mp h
    obtain ⟨_, later, _⟩ := bind_eq_ok.mp h
    refine List.forall_mem_cons.mpr ⟨?_, ih later⟩
    rw [Attachment.checkSize] at checked
    split at checked
    next size => exact size
    next => cases checked

/-- Attachments are put together exactly if they have the lengths that they declare. -/
lemma concat_eq_ok {attachments : List Attachment} {put : List AttachmentInfo × Bytes} :
    concat attachments = .ok put ↔
      (∀ a ∈ attachments, a.info.size.toNat = a.content.length) ∧
        put = (attachments.map Attachment.info, attachments.flatMap Attachment.content) := by
  refine ⟨fun h => ?_, fun h => h.2 ▸ concat_eq h.1⟩
  have sizes := sizes_of_concat h
  rw [concat_eq sizes, Except.ok.injEq] at h
  exact ⟨sizes, h.symm⟩

/-- Attachments are refused for the first one whose payload is not as long as declared. -/
lemma of_concat_error {attachments : List Attachment} {e : MailError}
    (h : concat attachments = .error e) :
    ∃ a ∈ attachments, a.info.size.toNat ≠ a.content.length ∧
      e = .integrity (.sizeMismatch a.info.index a.info.size a.content.length) := by
  induction attachments with
  | nil => cases h
  | cons attachment rest ih =>
    rw [concat, Attachment.checkSize] at h
    by_cases size : attachment.info.size.toNat = attachment.content.length
    · cases later : concat rest with
      | error e' =>
        rw [if_pos size, later] at h
        cases h
        obtain ⟨a, mem, mismatch⟩ := ih later
        exact ⟨a, List.mem_cons_of_mem _ mem, mismatch⟩
      | ok put =>
        rw [if_pos size, later] at h
        cases h
    · rw [if_neg size] at h
      cases h
      exact ⟨attachment, List.mem_cons_self, size, rfl⟩

end Attachments

namespace Archive

/-- What is there is not missing. -/
@[simp]
lemma orMissing_eq_ok {α : Type} {error : Inconsistency} {x : Option α} {a : α} :
    orMissing error x = .ok a ↔ x = some a := by
  cases x with
  | none => exact ⟨nofun, nofun⟩
  | some b => exact ⟨fun h => by cases h; rfl, fun h => by cases h; rfl⟩

variable {archive archive' : Archive}

/-- Nothing but its conversation is looked up for the parts of a message. -/
lemma encode_congr {id : UInt64} (same : archive.conversation id = archive'.conversation id) :
    archive.encode id = archive'.encode id := by
  funext sender dateSent text footer attachments
  rw [encode, encode, same]

/-- A message is encoded from what is looked up about it, and from its conversation. -/
lemma encodeStored_congr {id : UInt64} (message : archive.message id = archive'.message id)
    (sender : archive.sender id = archive'.sender id)
    (attachments : archive.attachments id = archive'.attachments id)
    (conversation : ∀ stored, archive'.message id = some stored →
      archive.conversation stored.conversation = archive'.conversation stored.conversation) :
    archive.encodeStored id = archive'.encodeStored id := by
  rw [encodeStored, encodeStored, message, sender, attachments]
  cases found : archive'.message id with
  | none => rfl
  | some stored =>
    cases archive'.sender id with
    | none => rfl
    | some sender =>
      show archive.encode stored.conversation _ _ _ _ _ = _
      rw [encode_congr (conversation stored found)]
      rfl

/-- A message is encoded exactly if its conversation is there and its attachments have the lengths
that they declare, as its body and their payloads. -/
lemma encode_eq_ok {id : UInt64} {sender : Sender} {dateSent : DateTime} {text footer : String}
    {attachments : List Attachment} {encoded : EncodedMessage} :
    archive.encode id sender dateSent text footer attachments = .ok encoded ↔
      ∃ conversation, archive.conversation id = some conversation ∧
        (∀ a ∈ attachments, a.info.size.toNat = a.content.length) ∧
        encoded = ⟨Body.toBytes ⟨sender, conversation.participants, dateSent, text, footer,
          attachments.map Attachment.info⟩, attachments.flatMap Attachment.content⟩ := by
  simp only [encode, bind_eq_ok, orMissing_eq_ok, Attachments.concat_eq_ok, pure_eq_ok]
  refine exists_congr fun conversation => and_congr_right fun _ => ⟨?_, ?_⟩
  · rintro ⟨_, ⟨sizes, rfl⟩, rfl⟩
    exact ⟨sizes, rfl⟩
  · rintro ⟨sizes, rfl⟩
    exact ⟨_, ⟨sizes, rfl⟩, rfl⟩

/-- With its conversation there, a message is refused only for its attachments. -/
lemma of_encode_error {id : UInt64} {conversation : Conversation}
    (found : archive.conversation id = some conversation) {sender : Sender} {dateSent : DateTime}
    {text footer : String} {attachments : List Attachment} {e : MailError}
    (h : archive.encode id sender dateSent text footer attachments = .error e) :
    Attachments.concat attachments = .error e := by
  rw [encode, found, orMissing] at h
  cases put : Attachments.concat attachments with
  | error e' =>
    rw [put] at h
    cases h
    rfl
  | ok put' =>
    rw [put] at h
    cases h

/-- A draft can be encoded if its conversation is there and its attachments have the lengths that
they declare. -/
lemma exists_encodeDraft {conversation : Conversation} (address : Address) {draft : Draft}
    (dateSent : DateTime) (found : archive.conversation draft.conversation = some conversation)
    (sizes : ∀ a ∈ archive.draftAttachments draft.conversation,
      a.info.size.toNat = a.content.length) :
    ∃ encoded, archive.encodeDraft address draft dateSent = .ok encoded :=
  ⟨_, encode_eq_ok.mpr ⟨conversation, found, sizes, rfl⟩⟩

end Archive

end SealedMail
