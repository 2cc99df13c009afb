import SealedMail.Body.Reader
import SealedMail.Proofs.Address
import SealedMail.Proofs.Base64
import SealedMail.Proofs.DateTime
import SealedMail.Proofs.Json.RoundTrip
import SealedMail.Proofs.Results

/-!
# Bodies read back

What is written into a body, and what an account reads from it. Writing checks nothing, so not every
body that is written can be read: `Body.IsReadable` collects what its reader asks for, and
`Body.receivedBy` is what the account `own` then has. Each reader of a part succeeds exactly on the
parts that it accepts, with one result (`readSender_senderJson`, `readParticipants_recipients`,
`readEntries_attachmentJson`), `ReceivedBody.ofBytes_toBytes` puts them together, and
`ReceivedBody.body_read_back` spells out what that means field by field.
-/

namespace SealedMail

open Json (Fits)

/-! ## What a reader asks for and what it gets -/

/-- The picture as its reader has it: none where its type or its data is missing. -/
def Sender.shownAvatar (sender : Sender) : Option Avatar :=
  sender.avatar.filter fun avatar => !avatar.mimeType.isEmpty && !avatar.data.isEmpty

/-- The sender as its reader has it. -/
def Sender.shown (sender : Sender) : Sender := { sender with avatar := sender.shownAvatar }

/-- A reader accepts the entry of the attachment. -/
def AttachmentInfo.IsReadable (info : AttachmentInfo) : Prop :=
  info.filename ≠ "" ∧ info.mimeType ≠ "" ∧ info.hash ≠ "" ∧
    ∀ c ∈ info.hash.toList, Hex.isDigit c = true

/-- The entries with their positions, of which the first is given. -/
def AttachmentInfo.numbered (position : Nat) (infos : List AttachmentInfo) : List AttachmentInfo :=
  (infos.zipIdx position).map fun (info, i) => { info with index := UInt32.ofNat i }

/-- Those of a list with a member `own` left out, put into a set. -/
def AddressSet.insertOthers (own : Address) (members : AddressSet) (l : List Address) :
    AddressSet :=
  l.foldl (fun members a => if a = own then members else members.insert a) members

/-- Everyone who takes part but the account `own`. -/
def Body.participantsFor (own : Address) (body : Body) : AddressSet :=
  (if body.sender.address = own then .empty
    else AddressSet.empty.insert body.sender.address).insertOthers own body.recipients.toList

/-- A reader accepts the body. -/
def Body.IsReadable (body : Body) : Prop :=
  body.sender.name ≠ "" ∧
    (∃ a, a ∈ body.recipients) ∧ body.sender.address ∉ body.recipients ∧
    (∀ info ∈ body.attachments, info.IsReadable) ∧ body.attachments.length ≤ UInt32.size

/-- The body as the account `own` has it. -/
def Body.receivedBy (own : Address) (body : Body) : ReceivedBody where
  sender := body.sender.shown
  participants := body.participantsFor own
  dateSent := body.dateSent
  text := body.text
  footer := body.footer
  attachments := AttachmentInfo.numbered 0 body.attachments

/-- The members are those there were and the others of the list, without the own address. -/
lemma AddressSet.mem_insertOthers {own a : Address} {members : AddressSet} {l : List Address} :
    a ∈ members.insertOthers own l ↔ a ∈ members ∨ a ∈ l ∧ a ≠ own := by
  induction l generalizing members with
  | nil => simp [insertOthers]
  | cons b rest ih =>
    rw [insertOthers, List.foldl_cons, ← insertOthers, ih]
    by_cases reader : b = own
    · subst reader
      simp only [if_true, List.mem_cons]
      refine ⟨?_, ?_⟩
      · rintro (h | ⟨h, ne⟩)
        · exact .inl h
        · exact .inr ⟨.inr h, ne⟩
      · rintro (h | ⟨rfl | h, ne⟩)
        · exact .inl h
        · exact absurd rfl ne
        · exact .inr ⟨h, ne⟩
    · simp only [if_neg reader, mem_insert, List.mem_cons]
      refine ⟨?_, ?_⟩
      · rintro ((rfl | h) | ⟨h, ne⟩)
        · exact .inr ⟨.inl rfl, reader⟩
        · exact .inl h
        · exact .inr ⟨.inr h, ne⟩
      · rintro (h | ⟨rfl | h, ne⟩)
        · exact .inl (.inr h)
        · exact .inl (.inl rfl)
        · exact .inr ⟨h, ne⟩

/-- The participants are those of a list and the sender, without the reader. -/
lemma AddressSet.mem_insertOthers_sender {sender own a : Address} {l : List Address} :
    a ∈ (if sender = own then .empty else AddressSet.empty.insert sender).insertOthers own l ↔
      (a ∈ l ∨ a = sender) ∧ a ≠ own := by
  rw [mem_insertOthers]
  by_cases reader : sender = own
  · simp only [if_pos reader, not_mem_empty, false_or]
    refine ⟨fun h => ⟨.inl h.1, h.2⟩, ?_⟩
    rintro ⟨h | rfl, ne⟩
    · exact ⟨h, ne⟩
    · exact absurd reader ne
  · simp only [if_neg reader, mem_insert, not_mem_empty, or_false]
    refine ⟨?_, ?_⟩
    · rintro (rfl | h)
      · exact ⟨.inr rfl, reader⟩
      · exact ⟨.inl h.1, h.2⟩
    · rintro ⟨h | h, ne⟩
      · exact .inr ⟨h, ne⟩
      · exact .inl h

/-- The participants are the recipients and the sender, without the reader. -/
lemma Body.mem_participantsFor {own a : Address} {body : Body} :
    a ∈ body.participantsFor own ↔ (a ∈ body.recipients ∨ a = body.sender.address) ∧ a ≠ own := by
  rw [participantsFor, AddressSet.mem_insertOthers_sender, AddressSet.mem_toList]

/-- Nobody takes part in a message for himself. -/
lemma Body.not_mem_participantsFor (body : Body) (own : Address) : own ∉ body.participantsFor own :=
  fun mem => (mem_participantsFor.mp mem).2 rfl

/-- Besides the sender exactly the recipients take part, if the sender is not one of them. -/
lemma Body.participantsFor_sender (body : Body)
    (others : body.sender.address ∉ body.recipients) :
    body.participantsFor body.sender.address = body.recipients := by
  refine AddressSet.eq_of_mem_iff fun a => mem_participantsFor.trans ⟨?_, fun mem => ?_⟩
  · rintro ⟨mem | rfl, other⟩
    · exact mem
    · exact absurd rfl other
  · refine ⟨.inl mem, ?_⟩
    rintro rfl
    exact others mem

/-- Someone takes part besides the reader: the sender and the recipients are not the same. -/
lemma Body.IsReadable.exists_mem_participantsFor {body : Body} (readable : body.IsReadable)
    (own : Address) : ∃ a, a ∈ body.participantsFor own := by
  obtain ⟨_, ⟨a, mem⟩, others, _⟩ := readable
  by_cases self : a = own
  · refine ⟨body.sender.address, mem_participantsFor.mpr ⟨.inr rfl, ?_⟩⟩
    rintro rfl
    exact others (self ▸ mem)
  · exact ⟨a, mem_participantsFor.mpr ⟨.inl mem, self⟩⟩

/-- The first attachment gets the number, and the others those after it. -/
lemma AttachmentInfo.numbered_cons (position : Nat) (info : AttachmentInfo)
    (rest : List AttachmentInfo) :
    numbered position (info :: rest) =
      { info with index := UInt32.ofNat position } :: numbered (position + 1) rest := by
  simp [numbered]

/-- Numbering leaves no attachment out. -/
lemma AttachmentInfo.length_numbered (position : Nat) (infos : List AttachmentInfo) :
    (numbered position infos).length = infos.length := by
  rw [numbered, List.length_map, List.length_zipIdx]

/-- Numbering twice is numbering once. -/
@[simp]
lemma AttachmentInfo.numbered_numbered (position : Nat) (infos : List AttachmentInfo) :
    numbered position (numbered position infos) = numbered position infos := by
  induction infos generalizing position with
  | nil => rfl
  | cons info rest ih => rw [numbered_cons, numbered_cons, ih]

/-- The position does not matter to a reader. -/
lemma AttachmentInfo.isReadable_numbered {position : Nat} {infos : List AttachmentInfo}
    (readable : ∀ info ∈ infos, info.IsReadable) :
    ∀ info ∈ numbered position infos, info.IsReadable := by
  induction infos generalizing position with
  | nil => exact readable
  | cons info rest ih =>
    obtain ⟨first, others⟩ := List.forall_mem_cons.mp readable
    rw [numbered_cons]
    exact List.forall_mem_cons.mpr ⟨first, ih others⟩

/-- What is shown of a sender is shown of what is shown. -/
@[simp]
lemma Sender.shown_shown (sender : Sender) : sender.shown.shown = sender.shown := by
  rw [shown, shownAvatar, shown, shownAvatar, Option.filter_filter]
  simp only [Bool.and_self]

/-! ## Reading the parts -/

namespace ReceivedBody

/-- A fault is no result. -/
lemma fault_ne_ok {α : Type} {f : BodyFault} {a : α} : fault f ≠ Except.ok a := nofun

/-- The picture that is shown is read back from its fields. -/
lemma readAvatar_avatarFields (sender : Sender) :
    readAvatar (.ofFields (Body.avatarFields sender.avatar)) = .ok sender.shownAvatar := by
  obtain ⟨_, _, _, avatar⟩ := sender
  cases avatar with
  | none => rfl
  | some avatar =>
    by_cases missing : (avatar.mimeType.isEmpty || avatar.data.isEmpty) = true
    · have hidden : (!avatar.mimeType.isEmpty && !avatar.data.isEmpty) = false := by
        rw [← Bool.not_or, missing]
        rfl
      rw [Body.avatarFields, if_pos missing, Sender.shownAvatar, Option.filter, hidden]
      rfl
    · have shown : (!avatar.mimeType.isEmpty && !avatar.data.isEmpty) = true := by
        rw [← Bool.not_or, Bool.eq_false_iff.mpr missing]
        rfl
      rw [Body.avatarFields, if_neg missing, Sender.shownAvatar, Option.filter, if_pos shown]
      rw [Bool.and_eq_true, Bool.not_eq_true', Bool.not_eq_true'] at shown
      have data : Field.base64 false (.string (Base64.encode avatar.data)) = .ok avatar.data := by
        simp [Field.base64, Field.string, shown.2]
      have made (mimeType data : Json) : Json.ofFields [("mimeType", mimeType), ("data", data)] =
          .object [("data", data), ("mimeType", mimeType)] := by
        have order : "data".toList < "mimeType".toList := by decide
        simp only [Json.ofFields, List.foldl_cons, List.foldl_nil, Json.put_nil,
          Json.put_cons_of_lt order]
      rw [made]
      simp [readAvatar, Json.field, Json.lookup_cons_eq_ite, Field.string, shown.1, data]

/-- A sender is read if it has a name. -/
lemma readSender_senderJson {sender s : Sender} :
    readSender (Body.senderJson sender) = .ok s ↔ sender.name ≠ "" ∧ s = sender.shown := by
  have fields : (Body.senderJson sender).field "address" = .string sender.address.text ∧
      (Body.senderJson sender).field "name" = .string sender.name ∧
      (Body.senderJson sender).field "organization" = .string sender.organization ∧
      (Body.senderJson sender).field "avatar" = .ofFields (Body.avatarFields sender.avatar) := by
    simp [Body.senderJson, Json.field_ofFields, Json.lookup_cons_eq_ite]
  simp only [readSender, fields, readAvatar_avatarFields, bind_eq_ok, pure_eq_ok,
    Field.named_eq_ok, Field.address_text, Field.string_eq_ok, Field.stringOr_empty_eq_ok,
    Except.ok.injEq]
  refine ⟨?_, ?_⟩
  · rintro ⟨_, rfl, _, ⟨name, rfl⟩, _, rfl, _, rfl, rfl⟩
    exact ⟨name trivial, rfl⟩
  · rintro ⟨name, rfl⟩
    exact ⟨_, rfl, _, ⟨fun _ => name, rfl⟩, _, rfl, _, rfl, rfl⟩

/-- A recipient was taken if it is the text of an address other than the sender. -/
lemma addRecipient_eq_ok {sender own : Address} {members m : AddressSet} {json : Json} :
    addRecipient sender own members json = .ok m ↔
      ∃ a, Field.address json = .ok a ∧ a ≠ sender ∧
        m = if a = own then members else members.insert a := by
  simp only [addRecipient, bind_eq_ok, Field.named_eq_ok]
  refine exists_congr fun a => and_congr_right fun _ => ?_
  by_cases same : a = sender
  · rw [if_pos same]
    exact ⟨fun h => absurd h fault_ne_ok, fun h => absurd same h.1⟩
  · rw [if_neg same, pure_eq_ok]
    exact ⟨fun h => ⟨same, h⟩, fun h => h.2⟩

/-- Recipients were taken if they are the texts of addresses and none is the sender. Which addresses
these are does not depend on the reader. -/
lemma foldlM_addRecipient_eq_ok {sender own : Address} {items : List Json}
    {members m : AddressSet} :
    items.foldlM (addRecipient sender own) members = .ok m ↔
      ∃ l : List Address, items.map Field.address = l.map .ok ∧ sender ∉ l ∧
        m = members.insertOthers own l := by
  induction items generalizing members with
  | nil => simp [AddressSet.insertOthers]
  | cons item rest ih =>
    simp only [List.foldlM_cons, bind_eq_ok, addRecipient_eq_ok, ih]
    refine ⟨?_, ?_⟩
    · rintro ⟨_, ⟨a, read, ne, rfl⟩, l, later, notMem, rfl⟩
      refine ⟨a :: l, ?_, ?_, rfl⟩
      · rw [List.map_cons, read, later, List.map_cons]
      · rw [List.mem_cons, not_or]
        exact ⟨Ne.symm ne, notMem⟩
    · rintro ⟨l, read, notMem, rfl⟩
      cases l with
      | nil => cases read
      | cons a l =>
        rw [List.map_cons, List.map_cons, List.cons.injEq] at read
        rw [List.mem_cons, not_or] at notMem
        exact ⟨_, ⟨a, read.1, Ne.symm notMem.1, rfl⟩, l, read.2, notMem.2, rfl⟩

/-- Recipients that were written are taken if none is the sender. -/
lemma foldlM_addRecipient {sender own : Address} {l : List Address} {members m : AddressSet} :
    (l.map fun a => Json.string a.text).foldlM (addRecipient sender own) members = .ok m ↔
      sender ∉ l ∧ m = members.insertOthers own l := by
  have texts : (l.map fun a => Json.string a.text).map Field.address = l.map .ok := by
    simp [Function.comp_def]
  rw [foldlM_addRecipient_eq_ok, texts]
  refine ⟨?_, fun h => ⟨l, rfl, h⟩⟩
  rintro ⟨l', same, h⟩
  obtain rfl := List.map_injective_iff.mpr (fun _ _ => Except.ok.inj) same
  exact h

/-- Recipients that include the sender are refused, wherever he stands. -/
lemma foldlM_addRecipient_of_mem {sender : Address} (own : Address) {l : List Address}
    (mem : sender ∈ l) (members : AddressSet) :
    (l.map fun a => Json.string a.text).foldlM (addRecipient sender own) members =
      fault .recipientsContainSender := by
  induction l generalizing members with
  | nil => cases mem
  | cons a rest ih =>
    rw [List.map_cons, List.foldlM_cons, addRecipient, Field.address_text]
    show ((if a = sender then _ else _) >>= _) = _
    by_cases same : a = sender
    · rw [if_pos same]
      rfl
    · rw [if_neg same]
      exact ih ((List.mem_cons.mp mem).resolve_left (Ne.symm same)) _

/-- The participants are read if there is a recipient and none is the sender. -/
lemma readParticipants_recipients {own : Address} {body : Body} {m : AddressSet} :
    readParticipants body.sender.address own
        (.array (body.recipients.toList.map fun a => .string a.text)) = .ok m ↔
      ((∃ a, a ∈ body.recipients) ∧ body.sender.address ∉ body.recipients) ∧
        m = body.participantsFor own := by
  have members : ∀ a, a ∈ body.recipients ↔ a ∈ body.recipients.toList := fun _ => Iff.rfl
  simp only [members, Body.participantsFor]
  cases body.recipients.toList with
  | nil => simp [readParticipants, fault]
  | cons a rest =>
    refine (foldlM_addRecipient (l := a :: rest)).trans ?_
    simp

/-- Recipients that include the sender are refused. -/
lemma readParticipants_of_mem {sender : Address} (own : Address) {l : List Address}
    (mem : sender ∈ l) :
    readParticipants sender own (.array (l.map fun a => .string a.text)) =
      fault .recipientsContainSender := by
  cases l with
  | nil => cases mem
  | cons a rest => exact foldlM_addRecipient_of_mem own mem _

/-- A description is read back under its place, if it is one that a reader accepts. -/
lemma readAttachment_attachmentJson {position : Nat} {info r : AttachmentInfo} :
    readAttachment position (Body.attachmentJson info) = .ok r ↔
      info.IsReadable ∧ r = { info with index := UInt32.ofNat position } := by
  simp [readAttachment, Body.attachmentJson, Json.field_ofFields, Json.lookup_cons_eq_ite,
    AttachmentInfo.IsReadable, and_assoc]

/-- The entries of attachments are read if a reader accepts each and no position is beyond 32
bits. -/
lemma readEntries_attachmentJson {position : Nat} {infos r : List AttachmentInfo}
    (h : position ≤ UInt32.size) :
    readEntries position (infos.map Body.attachmentJson) = .ok r ↔
      ((∀ info ∈ infos, info.IsReadable) ∧ position + infos.length ≤ UInt32.size) ∧
        r = AttachmentInfo.numbered position infos := by
  induction infos generalizing position r with
  | nil =>
    rw [List.map_nil, readEntries, Except.ok.injEq]
    exact ⟨fun empty => ⟨⟨nofun, h⟩, empty.symm⟩, fun empty => empty.2.symm⟩
  | cons info rest ih =>
    rw [List.map_cons, readEntries, List.length_cons]
    -- the position is checked before the entry is read
    by_cases full : UInt32.size ≤ position
    · rw [if_pos full]
      refine ⟨fun h => absurd h fault_ne_ok, ?_⟩
      rintro ⟨⟨_, short⟩, _⟩
      omega
    · rw [if_neg full]
      simp only [bind_eq_ok, pure_eq_ok, readAttachment_attachmentJson,
        ih (show position + 1 ≤ UInt32.size by omega), List.forall_mem_cons,
        AttachmentInfo.numbered_cons]
      refine ⟨?_, ?_⟩
      · rintro ⟨_, ⟨first, rfl⟩, _, ⟨⟨others, short⟩, rfl⟩, rfl⟩
        exact ⟨⟨⟨first, others⟩, by omega⟩, rfl⟩
      · rintro ⟨⟨⟨first, others⟩, short⟩, rfl⟩
        exact ⟨_, ⟨first, rfl⟩, _, ⟨⟨others, by omega⟩, rfl⟩, rfl⟩

end ReceivedBody

/-! ## Reading a body -/

namespace Body

/-- The fields of a picture are not nested. -/
lemma fits_avatarFields (avatar : Option Avatar) :
    ∀ field ∈ avatarFields avatar, Fits 0 field.2 := by
  cases avatar with
  | none => simp [avatarFields]
  | some avatar =>
    rw [avatarFields]
    split
    · simp
    · simp [Fits.string]

/-- A sender is nested two levels deep. -/
lemma fits_senderJson (sender : Sender) : Fits 2 (senderJson sender) := by
  refine .ofFields ?_
  simp only [List.forall_mem_cons]
  exact ⟨.string _, .string _, .string _, .ofFields (fits_avatarFields sender.avatar), nofun⟩

/-- A description is nested one level deep. -/
lemma fits_attachmentJson (info : AttachmentInfo) : Fits 1 (attachmentJson info) := by
  have small : info.size.toNat < 0x100000000 := info.size.toNat_lt
  refine .ofFields ?_
  simp only [List.forall_mem_cons]
  exact ⟨.string _, .string _, .string _, .integer (by omega) (by omega), .string _, nofun⟩

/-- A body is written three levels deep. -/
lemma fits_toJson (body : Body) : Fits 4 body.toJson := by
  refine .ofFields ?_
  simp only [List.forall_mem_cons]
  refine ⟨(fits_senderJson _).mono (by decide), .array ?_, .string _, .string _, .string _,
    .array ?_, nofun⟩
  · simp [Fits.string]
  · intro entry hentry
    obtain ⟨info, _, rfl⟩ := List.mem_map.mp hentry
    exact (fits_attachmentJson info).mono (by decide)

/-- The fields of a body are found in its document. -/
lemma field_toJson (body : Body) :
    body.toJson.field "sender" = senderJson body.sender ∧
    body.toJson.field "recipients" = .array (body.recipients.toList.map fun a => .string a.text) ∧
    body.toJson.field "dateSent" = .string body.dateSent.render ∧
    body.toJson.field "text" = .string body.text ∧
    body.toJson.field "footer" = .string body.footer ∧
    body.toJson.field "attachmentsIndex" = .array (body.attachments.map attachmentJson) := by
  simp [toJson, Json.field_ofFields, Json.lookup_cons_eq_ite]

end Body

namespace ReceivedBody

/-- A body that was written is read if its reader accepts it, and as `receivedBy` says. -/
lemma ofBytes_toBytes {own : Address} {body : Body} {r : ReceivedBody} :
    ofBytes own body.toBytes = .ok r ↔ body.IsReadable ∧ r = body.receivedBy own := by
  have read : Json.ofBytes? body.toBytes = some body.toJson :=
    (body.fits_toJson.mono (by decide)).ofBytes?_toBytes
  have attachments : ∀ {l : List AttachmentInfo},
      readAttachments (.array (body.attachments.map Body.attachmentJson)) = .ok l ↔
        ((∀ info ∈ body.attachments, info.IsReadable) ∧ body.attachments.length ≤ UInt32.size) ∧
          l = AttachmentInfo.numbered 0 body.attachments := by
    intro l
    refine (readEntries_attachmentJson (Nat.zero_le _)).trans ?_
    rw [Nat.zero_add]
  have isObject : body.toJson.isObject = true := rfl
  have senderIsObject : (Body.senderJson body.sender).isObject = true := rfl
  rw [ofBytes, read]
  simp only [ofJson, isObject, Bool.not_true, Bool.false_eq_true, if_false, body.field_toJson,
    senderIsObject, bind_eq_ok, readSender_senderJson, attachments, Field.named_eq_ok,
    Field.date_render, Field.stringOr_empty_eq_ok, Except.ok.injEq, exists_eq_left,
    exists_eq_left', pure_eq_ok]
  refine ⟨?_, ?_⟩
  · rintro ⟨_, ⟨name, rfl⟩, _, members, _, ⟨⟨entries, few⟩, rfl⟩, rfl⟩
    obtain ⟨⟨nonempty, notMem⟩, rfl⟩ := readParticipants_recipients.mp members
    exact ⟨⟨name, nonempty, notMem, entries, few⟩, rfl⟩
  · rintro ⟨⟨name, nonempty, notMem, entries, few⟩, rfl⟩
    exact ⟨_, ⟨name, rfl⟩, _, readParticipants_recipients.mpr ⟨⟨nonempty, notMem⟩, rfl⟩, _,
      ⟨⟨entries, few⟩, rfl⟩, rfl⟩

/-- A body with a name whose sender is among the recipients is refused for this reason. -/
lemma ofBytes_toBytes_of_mem {body : Body} (name : body.sender.name ≠ "")
    (mem : body.sender.address ∈ body.recipients) (own : Address) :
    ofBytes own body.toBytes = fault .recipientsContainSender := by
  have read : Json.ofBytes? body.toBytes = some body.toJson :=
    (body.fits_toJson.mono (by decide)).ofBytes?_toBytes
  have isObject : body.toJson.isObject = true := rfl
  have senderIsObject : (Body.senderJson body.sender).isObject = true := rfl
  have sender : readSender (Body.senderJson body.sender) = .ok body.sender.shown :=
    readSender_senderJson.mpr ⟨name, rfl⟩
  have participants : readParticipants body.sender.shown.address own
      (.array (body.recipients.toList.map fun a => .string a.text)) =
        fault .recipientsContainSender := readParticipants_of_mem own mem
  rw [ofBytes, read]
  simp only [ofJson, isObject, Bool.not_true, Bool.false_eq_true, if_false, body.field_toJson,
    senderIsObject, sender]
  show (readParticipants _ own _ >>= _) = _
  rw [participants]
  rfl

/-- Bodies with the same bytes are received as the same. -/
lemma receivedBy_eq {body other : Body} (readable : body.IsReadable)
    (same : body.toBytes = other.toBytes) (own : Address) :
    body.receivedBy own = other.receivedBy own := by
  have read : ofBytes own body.toBytes = .ok (body.receivedBy own) :=
    ofBytes_toBytes.mpr ⟨readable, rfl⟩
  rw [same] at read
  exact (ofBytes_toBytes.mp read).2

/-- Writing and reading agree. A body can be read exactly if its sender has a name, it has
recipients and the sender is none of them, and every attachment has a name, a type and a
hexadecimal hash and a position of 32 bits. Then nothing is lost but the positions that the
attachments had before, and a picture without a type or without data. -/
theorem body_read_back (own : Address) (body : Body) :
    ((∃ received, ofBytes own body.toBytes = .ok received) ↔
      body.sender.name ≠ "" ∧
        (∃ a, a ∈ body.recipients) ∧ body.sender.address ∉ body.recipients ∧
        (∀ info ∈ body.attachments, info.filename ≠ "" ∧ info.mimeType ≠ "" ∧ info.hash ≠ "" ∧
          ∀ c ∈ info.hash.toList, Hex.isDigit c = true) ∧
        body.attachments.length ≤ UInt32.size) ∧
    ∀ received, ofBytes own body.toBytes = .ok received →
      received.sender = { body.sender with
        avatar := body.sender.avatar.filter fun avatar =>
          !avatar.mimeType.isEmpty && !avatar.data.isEmpty } ∧
      (∀ a, a ∈ received.participants ↔
        (a ∈ body.recipients ∨ a = body.sender.address) ∧ a ≠ own) ∧
      received.dateSent = body.dateSent ∧
      received.text = body.text ∧ received.footer = body.footer ∧
      received.attachments = body.attachments.zipIdx.map fun (info, position) =>
        { info with index := UInt32.ofNat position } := by
  refine ⟨⟨?_, ?_⟩, ?_⟩
  · rintro ⟨received, h⟩
    exact (ofBytes_toBytes.mp h).1
  · intro readable
    exact ⟨body.receivedBy own, ofBytes_toBytes.mpr ⟨readable, rfl⟩⟩
  · intro received h
    obtain ⟨_, rfl⟩ := ofBytes_toBytes.mp h
    exact ⟨rfl, fun _ => Body.mem_participantsFor, rfl, rfl, rfl, rfl⟩

end ReceivedBody

end SealedMail
