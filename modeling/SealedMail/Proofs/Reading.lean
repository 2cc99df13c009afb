import SealedMail.Proofs.Body

/-!
# Bodies as they are read

A body that was received may have been written by anyone, in any way. Its reader nevertheless has
nothing that could not be in a body of this library's own: whatever bytes are accepted stand for a
`Body` that can be read, and every account reads them as it reads that body
(`ReceivedBody.exists_body`). The typed readers are taken apart first, then the parts of a body from
the sender to the index of attachments.
-/

namespace SealedMail

/-! ## Fields -/

namespace Field

/-- A text that may not be empty is not. -/
lemma of_string {json : Json} {s : String} (h : string false json = .ok s) : s ≠ "" := by
  cases json with
  | string t =>
    obtain ⟨nonempty, rfl⟩ := string_eq_ok.mp h
    exact nonempty rfl
  | _ => cases h

/-- Hexadecimal text that may not be empty has digits only, and some. -/
lemma of_hex {json : Json} {s : String} (h : hex false json = .ok s) :
    s ≠ "" ∧ ∀ c ∈ s.toList, Hex.isDigit c = true := by
  cases json with
  | string t =>
    obtain ⟨digits, rfl⟩ := hex_eq_ok.mp h
    exact digits
  | _ => cases h

end Field

namespace Base64

/-- Some digits are read as some bytes. -/
lemma ne_nil_of_decode? {text : String} {b : Bytes} (h : decode? text = some b)
    (nonempty : text ≠ "") : b ≠ [] := by
  obtain rfl := decode?_eq_some.mp h
  exact mt encode_eq_empty.mpr nonempty

end Base64

namespace ReceivedBody

/-! ## The sender -/

/-- A picture that was read has a type and data. -/
lemma of_readAvatar {json : Json} {avatar : Option Avatar} (h : readAvatar json = .ok avatar) :
    ∀ picture ∈ avatar, picture.mimeType ≠ "" ∧ picture.data ≠ [] := by
  rw [readAvatar.eq_def] at h
  split at h
  next =>
    cases h
    exact nofun
  next =>
    cases h
    exact nofun
  next =>
    simp only [bind_eq_ok, Field.named_eq_ok, pure_eq_ok] at h
    obtain ⟨mimeType, type, data, given, rfl⟩ := h
    rintro picture ⟨⟩
    simp only [Field.base64, bind_eq_ok] at given
    obtain ⟨digits, nonempty, decoded⟩ := given
    refine ⟨Field.of_string type, ?_⟩
    split at decoded
    next spelled =>
      cases decoded
      exact Base64.ne_nil_of_decode? spelled (Field.of_string nonempty)
    next => cases decoded
  next => cases h
  next => cases h

/-- A sender that was read has an address and a name, and all of it is shown. -/
lemma of_readSender {json : Json} {sender : Sender} (h : readSender json = .ok sender) :
    Field.address (json.field "address") = .ok sender.address ∧ sender.name ≠ "" ∧
      sender.shown = sender := by
  simp only [readSender, bind_eq_ok, Field.named_eq_ok, pure_eq_ok] at h
  obtain ⟨address, addressed, name, named, organization, _, avatar, pictured, rfl⟩ := h
  refine ⟨addressed, Field.of_string named, ?_⟩
  rw [Sender.shown, Sender.shownAvatar]
  cases avatar with
  | none => rfl
  | some picture =>
    obtain ⟨mimeType, data⟩ := of_readAvatar pictured picture rfl
    simp [Option.filter, mimeType, data]

/-! ## The participants -/

/-- The value is an array of the texts of addresses, which are these. -/
def ListsAddresses (json : Json) (addresses : AddressSet) : Prop :=
  ∃ items l, json = .array items ∧ items.map Field.address = l.map .ok ∧ addresses = .ofList l

/-- Participants that were read are those of the recipients that are listed, whoever the reader
is. -/
lemma exists_recipients {sender own : Address} {json : Json} {m : AddressSet}
    (h : readParticipants sender own json = .ok m) :
    ∃ recipients : AddressSet, ListsAddresses json recipients ∧
      (∃ a, a ∈ recipients) ∧ sender ∉ recipients ∧
      ∀ other, readParticipants sender other json =
        .ok ((if sender = other then .empty else AddressSet.empty.insert sender).insertOthers other
          recipients.toList) := by
  rw [readParticipants.eq_def] at h
  split at h
  next => cases h
  next items nonempty =>
    obtain ⟨l, read, notMem, _⟩ := foldlM_addRecipient_eq_ok.mp h
    refine ⟨.ofList l, ⟨items, l, rfl, read, rfl⟩, ?_, ?_, ?_⟩
    · cases l with
      | nil => exact absurd (List.map_eq_nil_iff.mp read) nonempty
      | cons a rest => exact ⟨a, AddressSet.mem_ofList.mpr List.mem_cons_self⟩
    · exact fun mem => notMem (AddressSet.mem_ofList.mp mem)
    · intro other
      rw [readParticipants.eq_def]
      split
      next empty => exact absurd (Json.array.inj empty) nonempty
      next items' _ same =>
        cases same
        refine foldlM_addRecipient_eq_ok.mpr ⟨l, read, notMem, AddressSet.eq_of_mem_iff fun a => ?_⟩
        rw [AddressSet.mem_insertOthers, AddressSet.mem_insertOthers, AddressSet.mem_toList,
          AddressSet.mem_ofList]
      next none => exact absurd rfl (none _)
  next => cases h

/-! ## The index of attachments -/

/-- A description that was read is one that a reader accepts, under its place. -/
lemma of_readAttachment {position : Nat} {json : Json} {info : AttachmentInfo}
    (h : readAttachment position json = .ok info) :
    info.IsReadable ∧ info.index = UInt32.ofNat position := by
  simp only [readAttachment, bind_eq_ok, Field.named_eq_ok, pure_eq_ok] at h
  obtain ⟨filename, named, mimeType, typed, size, _, note, _, hash, hashed, rfl⟩ := h
  exact ⟨⟨Field.of_string named, Field.of_string typed, Field.of_hex hashed⟩, rfl⟩

/-- Descriptions that were read are numbered from the first place on, and not too many. -/
lemma of_readEntries {position : Nat} {items : List Json} {infos : List AttachmentInfo}
    (start : position ≤ UInt32.size) (h : readEntries position items = .ok infos) :
    (∀ info ∈ infos, info.IsReadable) ∧ position + infos.length ≤ UInt32.size ∧
      AttachmentInfo.numbered position infos = infos := by
  induction items generalizing position infos with
  | nil =>
    cases h
    exact ⟨nofun, start, rfl⟩
  | cons item rest ih =>
    rw [readEntries] at h
    by_cases full : UInt32.size ≤ position
    · rw [if_pos full] at h
      cases h
    · rw [if_neg full] at h
      simp only [bind_eq_ok, pure_eq_ok] at h
      obtain ⟨info, first, infos, later, rfl⟩ := h
      obtain ⟨readable, index⟩ := of_readAttachment first
      obtain ⟨others, short, numbered⟩ := ih (by omega) later
      refine ⟨List.forall_mem_cons.mpr ⟨readable, others⟩, ?_, ?_⟩
      · rw [List.length_cons]
        omega
      · rw [AttachmentInfo.numbered_cons, numbered, ← index]

/-- An index that was read has descriptions that a reader accepts, numbered, and not too many. -/
lemma of_readAttachments {json : Json} {infos : List AttachmentInfo}
    (h : readAttachments json = .ok infos) :
    (∀ info ∈ infos, info.IsReadable) ∧ infos.length ≤ UInt32.size ∧
      AttachmentInfo.numbered 0 infos = infos := by
  rw [readAttachments.eq_def] at h
  split at h
  next =>
    cases h
    exact ⟨nofun, Nat.zero_le _, rfl⟩
  next =>
    obtain ⟨readable, few, numbered⟩ := of_readEntries (Nat.zero_le _) h
    rw [Nat.zero_add] at few
    exact ⟨readable, few, numbered⟩
  next => cases h

/-! ## The body -/

/-- The bytes are an object that names this sender and these recipients. -/
def Names (b : Bytes) (sender : Address) (recipients : AddressSet) : Prop :=
  ∃ json, Json.ofBytes? b = some json ∧
    Field.address ((json.field "sender").field "address") = .ok sender ∧
    ListsAddresses (json.field "recipients") recipients

/-- A body names one sender, and one group of recipients. -/
lemma Names.unique {b : Bytes} {sender sender' : Address} {recipients recipients' : AddressSet}
    (names : Names b sender recipients) (names' : Names b sender' recipients') :
    sender = sender' ∧ recipients = recipients' := by
  obtain ⟨json, parsed, sent, items, l, listed, read, rfl⟩ := names
  obtain ⟨json', parsed', sent', items', l', listed', read', rfl⟩ := names'
  rw [parsed, Option.some.injEq] at parsed'
  subst parsed'
  rw [listed, Json.array.injEq] at listed'
  subst listed'
  rw [sent, Except.ok.injEq] at sent'
  rw [read] at read'
  obtain rfl := List.map_injective_iff.mpr (fun _ _ => Except.ok.inj) read'
  exact ⟨sent', rfl⟩

/-- A body names its sender and its recipients. -/
lemma names_toBytes (body : Body) : Names body.toBytes body.sender.address body.recipients := by
  have parsed : Json.ofBytes? body.toBytes = some body.toJson :=
    (body.fits_toJson.mono (by decide)).ofBytes?_toBytes
  obtain ⟨sender, recipients, _⟩ := body.field_toJson
  refine ⟨body.toJson, parsed, ?_, _, body.recipients.toList, recipients, ?_, ?_⟩
  · rw [sender]
    simp [Body.senderJson, Json.field_ofFields, Json.lookup_cons_eq_ite]
  · simp [Function.comp_def]
  · refine AddressSet.eq_of_mem_iff fun a => ?_
    rw [AddressSet.mem_ofList, AddressSet.mem_toList]

/-- Bytes that one account reads stand for a body that can be read, from the sender and to the
recipients that they name, and every account reads them as this body. -/
theorem exists_body {own : Address} {b : Bytes} {received : ReceivedBody}
    (h : ofBytes own b = .ok received) :
    ∃ body : Body, body.IsReadable ∧ Names b body.sender.address body.recipients ∧
      ∀ other, ofBytes other b = .ok (body.receivedBy other) := by
  rw [ofBytes] at h
  cases parsed : Json.ofBytes? b with
  | none =>
    rw [parsed] at h
    cases h
  | some json =>
    simp only [parsed, ofJson] at h
    split at h
    next => cases h
    next object =>
      split at h
      next => cases h
      next senderObject =>
        simp only [bind_eq_ok, Field.named_eq_ok, pure_eq_ok] at h
        obtain ⟨sender, sent, _, participants, infos, index, dateSent, dated, text, written, footer,
          closed, rfl⟩ := h
        obtain ⟨address, name, shown⟩ := of_readSender sent
        obtain ⟨recipients, listed, some, notMem, members⟩ := exists_recipients participants
        obtain ⟨readable, few, numbered⟩ := of_readAttachments index
        refine ⟨⟨sender, recipients, dateSent, text, footer, infos⟩,
          ⟨name, some, notMem, readable, few⟩, ⟨json, parsed, address, listed⟩, fun other => ?_⟩
        simp only [ofBytes, parsed, ofJson, if_neg object, if_neg senderObject, bind_eq_ok,
          Field.named_eq_ok, pure_eq_ok]
        refine ⟨sender, sent, _, members other, infos, index, dateSent, dated, text, written, footer,
          closed, ?_⟩
        rw [Body.receivedBy, shown, numbered]
        rfl

/-! ## Bodies that are written once more -/

/-- What can be relied on in a body that the account `own` has read. -/
structure WellFormed (own : Address) (received : ReceivedBody) : Prop where
  name : received.sender.name ≠ ""
  shown : received.sender.shown = received.sender
  nonempty : ∃ a, a ∈ received.participants
  reader : own ∉ received.participants
  sender : received.sender.address ≠ own → received.sender.address ∈ received.participants
  readable : ∀ info ∈ received.attachments, info.IsReadable
  few : received.attachments.length ≤ UInt32.size
  numbered : AttachmentInfo.numbered 0 received.attachments = received.attachments

/-- Whatever is received is well formed. -/
theorem wellFormed_of_ofBytes {own : Address} {b : Bytes} {received : ReceivedBody}
    (h : ofBytes own b = .ok received) : received.WellFormed own := by
  obtain ⟨body, accepted, _, read⟩ := exists_body h
  have ⟨name, _, _, readable, few⟩ := accepted
  rw [read, Except.ok.injEq] at h
  subst h
  exact {
    name := name
    shown := body.sender.shown_shown
    nonempty := accepted.exists_mem_participantsFor own
    reader := body.not_mem_participantsFor own
    sender := fun other => Body.mem_participantsFor.mpr ⟨.inr rfl, other⟩
    readable := AttachmentInfo.isReadable_numbered readable
    few := (AttachmentInfo.length_numbered 0 body.attachments).trans_le few
    numbered := AttachmentInfo.numbered_numbered 0 body.attachments }

/-- A body with everything that was read, addressed to the participants. -/
def toBody (received : ReceivedBody) : Body :=
  ⟨received.sender, received.participants, received.dateSent, received.text, received.footer,
    received.attachments⟩

/-- The reader who is the sender reads the same again. -/
lemma WellFormed.ofBytes_toBody {own : Address} {received : ReceivedBody}
    (wellFormed : received.WellFormed own) (self : received.sender.address = own) :
    ofBytes own received.toBody.toBytes = .ok received := by
  subst self
  have readable : received.toBody.IsReadable :=
    ⟨wellFormed.name, wellFormed.nonempty, wellFormed.reader, wellFormed.readable, wellFormed.few⟩
  refine ofBytes_toBytes.mpr ⟨readable, ?_⟩
  have participants : received.toBody.participantsFor received.sender.address =
      received.participants := received.toBody.participantsFor_sender wellFormed.reader
  show received = ⟨received.sender.shown, _, _, _, _, AttachmentInfo.numbered 0 received.attachments⟩
  rw [participants, wellFormed.shown, wellFormed.numbered]
  rfl

/-- Every other reader is told that the sender is among the recipients. -/
lemma WellFormed.ofBytes_toBody_ne {own : Address} {received : ReceivedBody}
    (wellFormed : received.WellFormed own) (other : received.sender.address ≠ own) :
    ofBytes own received.toBody.toBytes = fault .recipientsContainSender :=
  ofBytes_toBytes_of_mem wellFormed.name (wellFormed.sender other) own

end ReceivedBody

end SealedMail
