import SealedMail.Proofs.Reading

/-!
# What a body must be

The schema of a body, with the values that stand in it: for each typed field a relation between a
JSON value and what is read from it (`Field.IsText`, `Field.IsAddress`), and from these the parts of
a body up to the whole (`ReceivedBody.Describes`). Each reader accepts what its part of the schema
says and nothing else, with the values that stand there (`readAvatar_eq_ok`, `readSender_eq_ok`,
`readParticipants_eq_ok`, `readAttachments_eq_ok`). So bytes are read exactly if they are described,
and everything else is refused as invalid (`ReceivedBody.read_iff_described`).
-/

namespace SealedMail

/-! ## Fields -/

namespace Field

/-- The value is a text, and not the empty one. -/
def IsText (json : Json) (s : String) : Prop := json = .string s ∧ s ≠ ""

/-- The value is a text, or null in place of the empty one. -/
def IsOptionalText (json : Json) (s : String) : Prop := json = .null ∧ s = "" ∨ json = .string s

/-- The value is a text of hexadecimal digits, and not the empty one. -/
def IsHex (json : Json) (s : String) : Prop :=
  IsText json s ∧ ∀ c ∈ s.toList, Hex.isDigit c = true

/-- The value is the base 64 text of bytes, of which there are some. -/
def IsBase64 (json : Json) (b : Bytes) : Prop := json = .string (Base64.encode b) ∧ b ≠ []

/-- The value is a text that spells the date. -/
def IsDate (json : Json) (d : DateTime) : Prop :=
  ∃ s, json = .string s ∧ DateTime.ofString? s = some d

/-- The value is a text that spells the address. -/
def IsAddress (json : Json) (a : Address) : Prop :=
  ∃ s, json = .string s ∧ Address.ofString? s = some a

variable {json : Json}

/-- A text that may not be empty is read exactly from such a text. -/
lemma string_false_eq_ok {s : String} : string false json = .ok s ↔ IsText json s := by
  cases json with
  | string t =>
    rw [string_eq_ok, IsText, Json.string.injEq]
    refine ⟨?_, ?_⟩
    · rintro ⟨nonempty, rfl⟩
      exact ⟨rfl, nonempty rfl⟩
    · rintro ⟨rfl, nonempty⟩
      exact ⟨fun _ => nonempty, rfl⟩
  | _ => exact ⟨nofun, nofun⟩

/-- A text that may be left out is read exactly from a text or from null. -/
lemma stringOr_eq_ok {s : String} : stringOr "" json = .ok s ↔ IsOptionalText json s := by
  cases json with
  | null =>
    rw [stringOr, Except.ok.injEq]
    refine ⟨fun h => .inl ⟨rfl, h.symm⟩, ?_⟩
    rintro (⟨_, rfl⟩ | h)
    · rfl
    · cases h
  | string t =>
    rw [stringOr_empty_eq_ok]
    refine ⟨fun h => .inr (congrArg _ h.symm), ?_⟩
    rintro (⟨h, _⟩ | h)
    · cases h
    · exact (Json.string.inj h).symm
  | _ =>
    refine ⟨?_, ?_⟩
    · rintro ⟨⟩
    · rintro (⟨⟨⟩, _⟩ | ⟨⟨⟩⟩)

/-- Hexadecimal text is read exactly from such a text. -/
lemma hex_false_eq_ok {s : String} : hex false json = .ok s ↔ IsHex json s := by
  cases json with
  | string t =>
    rw [hex_eq_ok, IsHex, IsText, Json.string.injEq]
    refine ⟨?_, ?_⟩
    · rintro ⟨⟨nonempty, digits⟩, rfl⟩
      exact ⟨⟨rfl, nonempty⟩, digits⟩
    · rintro ⟨⟨rfl, nonempty⟩, digits⟩
      exact ⟨⟨nonempty, digits⟩, rfl⟩
  | _ => exact ⟨nofun, nofun⟩

/-- A number of 32 bits is read exactly from such a number. -/
lemma unsigned_eq_ok {n : UInt32} : unsigned json = .ok n ↔ json = .integer n.toNat := by
  refine ⟨fun h => ?_, ?_⟩
  · cases json with
    | integer i =>
      cases i with
      | ofNat m =>
        rw [unsigned] at h
        split at h
        next small =>
          cases h
          rw [UInt32.toNat_ofNat_of_lt' small]
          rfl
        next => cases h
      | negSucc m => cases h
    | _ => cases h
  · rintro rfl
    exact unsigned_toNat n

/-- A text is read by what reads its letters, where these cannot be none. -/
lemma spelled_eq_ok {α : Type} {f : String → Except FieldError α} {read : String → Option α} {a : α}
    (reads : ∀ s, f s = .ok a ↔ read s = some a) (empty : read "" = none) :
    (string false json >>= f) = .ok a ↔ ∃ s, json = .string s ∧ read s = some a := by
  simp only [bind_eq_ok, string_false_eq_ok, reads]
  refine exists_congr fun s => ⟨?_, ?_⟩
  · rintro ⟨⟨text, _⟩, spelled⟩
    exact ⟨text, spelled⟩
  · rintro ⟨text, spelled⟩
    refine ⟨⟨text, ?_⟩, spelled⟩
    rintro rfl
    rw [empty] at spelled
    cases spelled

/-- A date is read exactly from the text of one. -/
lemma date_eq_ok {d : DateTime} : date json = .ok d ↔ IsDate json d := by
  refine spelled_eq_ok (fun s => ?_) rfl
  cases DateTime.ofString? s with
  | some d' => simp
  | none => simp

/-- An address is read exactly from a spelling of it. -/
lemma addressOfString_eq_ok {s : String} {a : Address} :
    addressOfString s = .ok a ↔ Address.ofString? s = some a := by
  rw [addressOfString]
  cases Address.ofString? s with
  | some a' => simp
  | none => simp

/-- An address is read exactly from a text that spells it. -/
lemma address_eq_ok {a : Address} : address json = .ok a ↔ IsAddress json a :=
  spelled_eq_ok (fun _ => addressOfString_eq_ok) rfl

/-- Bytes are read exactly from what is written for them in base 64. -/
lemma base64_false_eq_ok {b : Bytes} : base64 false json = .ok b ↔ IsBase64 json b := by
  simp only [base64, bind_eq_ok, string_false_eq_ok]
  refine ⟨?_, ?_⟩
  · rintro ⟨s, ⟨rfl, nonempty⟩, h⟩
    split at h
    next read =>
      cases h
      exact ⟨congrArg _ (Base64.decode?_eq_some.mp read), Base64.ne_nil_of_decode? read nonempty⟩
    next => cases h
  · rintro ⟨rfl, some⟩
    refine ⟨_, ⟨rfl, mt Base64.encode_eq_empty.mp some⟩, ?_⟩
    rw [Base64.decode?_encode]

end Field

namespace ReceivedBody

open SealedMail.Field

/-! ## The parts of a body -/

/-- The value describes the picture of a sender: it is null or an empty object for none, or an
object of exactly two fields, its type and its data. -/
inductive DescribesAvatar : Json → Option Avatar → Prop where
  | absent : DescribesAvatar .null none
  | empty : DescribesAvatar (.object []) none
  | given {fields avatar} :
    (fields.map Prod.fst).Perm ["mimeType", "data"] →
    IsText ((Json.object fields).field "mimeType") avatar.mimeType →
    IsBase64 ((Json.object fields).field "data") avatar.data →
    DescribesAvatar (.object fields) (some avatar)

/-- The value is an object that describes the sender. -/
structure DescribesSender (json : Json) (sender : Sender) : Prop where
  object : json.isObject = true
  address : IsAddress (json.field "address") sender.address
  name : IsText (json.field "name") sender.name
  organization : IsOptionalText (json.field "organization") sender.organization
  avatar : DescribesAvatar (json.field "avatar") sender.avatar

/-- The value is an array of the texts of addresses, at least one, of which none is the sender. The
participants are these and the sender, without the reader `own`. -/
def DescribesParticipants (sender own : Address) (json : Json) (participants : AddressSet) : Prop :=
  ∃ items recipients, json = .array items ∧ items ≠ [] ∧
    List.Forall₂ IsAddress items recipients ∧ sender ∉ recipients ∧
    ∀ a, a ∈ participants ↔ (a = sender ∨ a ∈ recipients) ∧ a ≠ own

/-- The value describes the attachment at this position of the index. -/
structure DescribesAttachment (position : Nat) (json : Json) (info : AttachmentInfo) : Prop where
  index : info.index.toNat = position
  filename : IsText (json.field "filename") info.filename
  mimeType : IsText (json.field "mimeType") info.mimeType
  size : json.field "size" = .integer info.size.toNat
  note : IsOptionalText (json.field "note") info.note
  hash : IsHex (json.field "hash") info.hash

/-- The values describe the attachments from this position of the index on. -/
def DescribesEntries (position : Nat) (entries : List Json) (infos : List AttachmentInfo) : Prop :=
  List.Forall₂ (fun entry info => DescribesAttachment entry.2 entry.1 info)
    (entries.zipIdx position) infos

/-- The value is an array that describes the attachments, or null for none. -/
def DescribesAttachments (json : Json) (infos : List AttachmentInfo) : Prop :=
  json = .null ∧ infos = [] ∨ ∃ entries, json = .array entries ∧ DescribesEntries 0 entries infos

/-- The value is an object that describes what the account `own` reads from it. -/
structure Describes (own : Address) (json : Json) (received : ReceivedBody) : Prop where
  object : json.isObject = true
  sender : DescribesSender (json.field "sender") received.sender
  participants : DescribesParticipants received.sender.address own (json.field "recipients")
    received.participants
  attachments : DescribesAttachments (json.field "attachmentsIndex") received.attachments
  dateSent : IsDate (json.field "dateSent") received.dateSent
  text : IsOptionalText (json.field "text") received.text
  footer : IsOptionalText (json.field "footer") received.footer

/-! ## Reading the parts -/

/-- A field that is a text is there. -/
lemma mem_of_field {fields : List (String × Json)} {name s : String}
    (h : (Json.object fields).field name = .string s) : name ∈ fields.map Prod.fst := by
  rw [Json.field] at h
  cases found : fields.lookup name with
  | none =>
    rw [found] at h
    cases h
  | some value =>
    obtain ⟨before, after, rfl, _⟩ := List.lookup_eq_some_iff.mp found
    simp

/-- A picture is read exactly from what describes it. -/
lemma readAvatar_eq_ok {json : Json} {avatar : Option Avatar} :
    readAvatar json = .ok avatar ↔ DescribesAvatar json avatar := by
  refine ⟨fun h => ?_, fun h => ?_⟩
  · rw [readAvatar.eq_def] at h
    split at h
    next =>
      cases h
      exact .absent
    next =>
      cases h
      exact .empty
    next first second =>
      simp only [bind_eq_ok, Field.named_eq_ok, pure_eq_ok, string_false_eq_ok,
        base64_false_eq_ok] at h
      obtain ⟨mimeType, type, data, given, rfl⟩ := h
      -- two names are found among two, so there is no other one
      have names : ["mimeType", "data"] ⊆ [first, second].map Prod.fst := by
        refine List.cons_subset.mpr ⟨mem_of_field type.1, ?_⟩
        exact List.cons_subset.mpr ⟨mem_of_field given.1, List.nil_subset _⟩
      have distinct : ["mimeType", "data"].Nodup := by decide
      exact .given ((List.subperm_of_subset distinct names).perm_of_length_le (Nat.le_refl 2)).symm
        type given
    next => cases h
    next => cases h
  · cases h with
    | absent => rfl
    | empty => rfl
    | @given fields avatar names type given =>
      have two : fields.length = 2 := by
        rw [← List.length_map Prod.fst, names.length_eq]
        rfl
      obtain ⟨first, second, rfl⟩ := List.length_eq_two.mp two
      simp only [readAvatar, bind_eq_ok, Field.named_eq_ok, pure_eq_ok, string_false_eq_ok,
        base64_false_eq_ok]
      exact ⟨avatar.mimeType, type, avatar.data, given, rfl⟩

/-- A sender is read exactly from an object that describes him. -/
lemma readSender_eq_ok {json : Json} {sender : Sender} (object : json.isObject = true) :
    readSender json = .ok sender ↔ DescribesSender json sender := by
  simp only [readSender, bind_eq_ok, Field.named_eq_ok, pure_eq_ok, address_eq_ok,
    string_false_eq_ok, stringOr_eq_ok, readAvatar_eq_ok]
  refine ⟨?_, ?_⟩
  · rintro ⟨address, addressed, name, named, organization, placed, avatar, pictured, rfl⟩
    exact ⟨object, addressed, named, placed, pictured⟩
  · rintro ⟨_, addressed, named, placed, pictured⟩
    exact ⟨_, addressed, _, named, _, placed, _, pictured, rfl⟩

/-- Addresses are read exactly from texts that spell them, one by one. -/
lemma map_address_eq_ok {items : List Json} {l : List Address} :
    items.map Field.address = l.map .ok ↔ List.Forall₂ IsAddress items l := by
  rw [← List.forall₂_eq_eq_eq, List.forall₂_map_left_iff, List.forall₂_map_right_iff]
  simp only [address_eq_ok]

/-- Participants are read exactly from recipients that describe them. -/
lemma readParticipants_eq_ok {sender own : Address} {json : Json} {participants : AddressSet} :
    readParticipants sender own json = .ok participants ↔
      DescribesParticipants sender own json participants := by
  rw [readParticipants.eq_def]
  split
  next =>
    refine ⟨fun h => absurd h fault_ne_ok, ?_⟩
    rintro ⟨items, recipients, ⟨⟩, nonempty, _⟩
    exact absurd rfl nonempty
  next items nonempty =>
    rw [foldlM_addRecipient_eq_ok]
    refine ⟨?_, ?_⟩
    · rintro ⟨recipients, read, notMem, rfl⟩
      refine ⟨items, recipients, rfl, ?_, map_address_eq_ok.mp read, notMem, fun a => ?_⟩
      · rintro rfl
        exact nonempty rfl
      · rw [AddressSet.mem_insertOthers_sender, or_comm]
    · rintro ⟨_, recipients, ⟨⟩, _, read, notMem, members⟩
      refine ⟨recipients, map_address_eq_ok.mpr read, notMem, AddressSet.eq_of_mem_iff fun a => ?_⟩
      rw [members, AddressSet.mem_insertOthers_sender, or_comm]
  next none =>
    refine ⟨fun h => absurd h fault_ne_ok, ?_⟩
    rintro ⟨items, recipients, rfl, _⟩
    exact absurd rfl (none items)

/-- An attachment is read exactly from what describes it at its place. -/
lemma readAttachment_eq_ok {position : Nat} {json : Json} {info : AttachmentInfo}
    (small : position < UInt32.size) :
    readAttachment position json = .ok info ↔ DescribesAttachment position json info := by
  simp only [readAttachment, bind_eq_ok, Field.named_eq_ok, pure_eq_ok, string_false_eq_ok,
    unsigned_eq_ok, stringOr_eq_ok, hex_false_eq_ok]
  refine ⟨?_, ?_⟩
  · rintro ⟨filename, named, mimeType, typed, size, sized, note, noted, hash, hashed, rfl⟩
    exact ⟨UInt32.toNat_ofNat_of_lt' small, named, typed, sized, noted, hashed⟩
  · rintro ⟨rfl, named, typed, sized, noted, hashed⟩
    refine ⟨_, named, _, typed, _, sized, _, noted, _, hashed, ?_⟩
    rw [UInt32.ofNat_toNat]

/-- Attachments are read exactly from entries that describe them, one by one. -/
lemma readEntries_eq_ok {position : Nat} {entries : List Json} {infos : List AttachmentInfo} :
    readEntries position entries = .ok infos ↔ DescribesEntries position entries infos := by
  induction entries generalizing position infos with
  | nil =>
    rw [readEntries, DescribesEntries, List.zipIdx_nil, List.forall₂_nil_left_iff,
      Except.ok.injEq]
    exact eq_comm
  | cons entry rest ih =>
    rw [readEntries, DescribesEntries, List.zipIdx_cons]
    by_cases full : UInt32.size ≤ position
    · rw [if_pos full]
      refine ⟨fun h => absurd h fault_ne_ok, fun h => ?_⟩
      -- no attachment has a position of more than 32 bits
      cases h with
      | @cons _ info _ _ first _ =>
        have index : info.index.toNat = position := first.index
        have small : info.index.toNat < UInt32.size := info.index.toNat_lt
        rw [index] at small
        exact absurd full (Nat.not_le.mpr small)
    · rw [if_neg full]
      simp only [bind_eq_ok, pure_eq_ok, readAttachment_eq_ok (Nat.not_le.mp full), ih]
      refine ⟨?_, fun h => ?_⟩
      · rintro ⟨info, first, infos, later, rfl⟩
        exact .cons first later
      · cases h with
        | cons first later => exact ⟨_, first, _, later, rfl⟩

/-- An index is read exactly from what describes it. -/
lemma readAttachments_eq_ok {json : Json} {infos : List AttachmentInfo} :
    readAttachments json = .ok infos ↔ DescribesAttachments json infos := by
  rw [readAttachments.eq_def]
  split
  next =>
    rw [Except.ok.injEq]
    refine ⟨fun h => .inl ⟨rfl, h.symm⟩, ?_⟩
    rintro (⟨_, rfl⟩ | ⟨_, h, _⟩)
    · rfl
    · cases h
  next entries =>
    rw [readEntries_eq_ok]
    refine ⟨fun h => .inr ⟨entries, rfl, h⟩, ?_⟩
    rintro (⟨h, _⟩ | ⟨_, ⟨⟩, described⟩)
    · cases h
    · exact described
  next null none =>
    refine ⟨fun h => absurd h fault_ne_ok, ?_⟩
    rintro (⟨rfl, _⟩ | ⟨entries, rfl, _⟩)
    · exact absurd rfl null
    · exact absurd rfl (none entries)

/-! ## Bodies -/

/-- An object is read as what it describes. -/
lemma ofJson_eq_ok {own : Address} {json : Json} {received : ReceivedBody} :
    ofJson own json = .ok received ↔ Describes own json received := by
  rw [ofJson]
  cases object : json.isObject with
  | false =>
    refine ⟨?_, fun h => ?_⟩
    · rintro ⟨⟩
    · rw [h.object] at object
      cases object
  | true =>
    cases senderObject : (json.field "sender").isObject with
    | false =>
      refine ⟨?_, fun h => ?_⟩
      · rintro ⟨⟩
      · rw [h.sender.object] at senderObject
        cases senderObject
    | true =>
      simp only [Bool.not_true, Bool.false_eq_true, if_false, bind_eq_ok, Field.named_eq_ok,
        pure_eq_ok, readSender_eq_ok senderObject, readParticipants_eq_ok, readAttachments_eq_ok,
        date_eq_ok, stringOr_eq_ok]
      refine ⟨?_, ?_⟩
      · rintro ⟨sender, sent, _, members, infos, index, dateSent, dated, text, written, footer,
          closed, rfl⟩
        exact ⟨object, sent, members, index, dated, written, closed⟩
      · rintro ⟨_, sent, members, index, dated, written, closed⟩
        exact ⟨_, sent, _, members, _, index, _, dated, _, written, _, closed, rfl⟩

/-! ## Refusals -/

lemma fails_readAvatar (json : Json) : FailsWith MailError.IsFault (readAvatar json) := by
  rw [readAvatar.eq_def]
  split
  · exact .ok _
  · exact .ok _
  · apply FailsWith.bind (.named _ _)
    intro mimeType
    apply FailsWith.bind (.named _ _)
    intro data
    exact .ok _
  · exact .invalid _
  · exact .invalid _

lemma fails_readSender (json : Json) : FailsWith MailError.IsFault (readSender json) := by
  rw [readSender]
  apply FailsWith.bind (.named _ _)
  intro address
  apply FailsWith.bind (.named _ _)
  intro name
  apply FailsWith.bind (.named _ _)
  intro organization
  apply FailsWith.bind (fails_readAvatar _)
  intro avatar
  exact .ok _

lemma fails_addRecipient (sender own : Address) (members : AddressSet) (json : Json) :
    FailsWith MailError.IsFault (addRecipient sender own members json) := by
  rw [addRecipient]
  apply FailsWith.bind (.named _ _)
  intro address
  exact .ite (.invalid _) (.ok _)

lemma fails_readParticipants (sender own : Address) (json : Json) :
    FailsWith MailError.IsFault (readParticipants sender own json) := by
  rw [readParticipants.eq_def]
  split
  · exact .invalid _
  · exact .foldlM (fails_addRecipient sender own) _ _
  · exact .invalid _

lemma fails_readAttachment (position : Nat) (json : Json) :
    FailsWith MailError.IsFault (readAttachment position json) := by
  rw [readAttachment]
  apply FailsWith.bind (.named _ _)
  intro filename
  apply FailsWith.bind (.named _ _)
  intro mimeType
  apply FailsWith.bind (.named _ _)
  intro size
  apply FailsWith.bind (.named _ _)
  intro note
  apply FailsWith.bind (.named _ _)
  intro hash
  exact .ok _

lemma fails_readEntries (position : Nat) (entries : List Json) :
    FailsWith MailError.IsFault (readEntries position entries) := by
  induction entries generalizing position with
  | nil => exact .ok _
  | cons entry rest ih =>
    rw [readEntries]
    apply FailsWith.ite (.invalid _)
    apply FailsWith.bind (fails_readAttachment _ _)
    intro info
    apply FailsWith.bind (ih _)
    intro infos
    exact .ok _

lemma fails_readAttachments (json : Json) :
    FailsWith MailError.IsFault (readAttachments json) := by
  rw [readAttachments.eq_def]
  split
  · exact .ok _
  · exact fails_readEntries _ _
  · exact .invalid _

/-- A document that is no body is a fault. -/
lemma fails_ofJson (own : Address) (json : Json) :
    FailsWith MailError.IsFault (ofJson own json) := by
  rw [ofJson]
  apply FailsWith.ite (.invalid _)
  apply FailsWith.ite (.invalid _)
  apply FailsWith.bind (fails_readSender _)
  intro sender
  apply FailsWith.bind (fails_readParticipants _ _ _)
  intro participants
  apply FailsWith.bind (fails_readAttachments _)
  intro attachments
  apply FailsWith.bind (.named _ _)
  intro dateSent
  apply FailsWith.bind (.named _ _)
  intro text
  apply FailsWith.bind (.named _ _)
  intro footer
  exact .ok _

/-- Bytes that are no body are a fault. -/
lemma fails_ofBytes (own : Address) (b : Bytes) :
    FailsWith MailError.IsFault (ofBytes own b) := by
  rw [ofBytes]
  cases Json.ofBytes? b with
  | none => exact .invalid _
  | some json => exact fails_ofJson own json

/-- A body is read exactly if it follows the schema. The bytes must be an object in which the
sender, at least one recipient and the date are described, and the attachments, text and footer are
described or left out; then what is read is what they describe, for the account that reads.
Everything else is refused as invalid. -/
theorem read_iff_described (own : Address) (b : Bytes) :
    (∀ received, ofBytes own b = .ok received ↔
      ∃ json, Json.ofBytes? b = some json ∧ Describes own json received) ∧
    ∀ e, ofBytes own b = .error e → ∃ fault, e = .invalid fault := by
  refine ⟨fun received => ?_, fails_ofBytes own b⟩
  rw [ofBytes]
  cases Json.ofBytes? b with
  | none =>
    refine ⟨fun h => absurd h fault_ne_ok, ?_⟩
    rintro ⟨json, ⟨⟩, _⟩
  | some json =>
    refine ofJson_eq_ok.trans ⟨fun described => ⟨json, rfl, described⟩, ?_⟩
    rintro ⟨_, ⟨⟩, described⟩
    exact described

end ReceivedBody

end SealedMail
