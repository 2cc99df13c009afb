import Mathlib.NumberTheory.LucasLehmer
import SealedMail.Proofs.Body
import SealedMail.Proofs.Decoding
import SealedMail.Proofs.Encoding
import SealedMail.Proofs.Meta
import SealedMail.Proofs.Packing
import SealedMail.Proofs.Sealing
import SealedMail.Store.Drafts

/-!
# Drafts sent and read

A draft goes through a body, a compression, a signature, two encryptions and a key safe, and its
reader undoes each of them. The steps of the sender are taken apart (`Archive.of_encodeDraft`,
`EncodedMessage.of_sealFor`), the steps of the reader are put together (`WireMessage.decrypt_ok`,
`OpenedMessage.decode_ok`), and `draft_sent_and_read` says that what was written is what is read.
-/

namespace SealedMail

variable {σ : Type}

/-! ## What was sent -/

/-- The body of a draft. -/
def Archive.draftBody (archive : Archive) (conversation : Conversation) (address : Address)
    (draft : Draft) (dateSent : DateTime) : Body where
  sender := draftSender address draft
  recipients := conversation.participants
  dateSent := dateSent
  text := draft.text
  footer := draft.footer
  attachments := (archive.draftAttachments draft.conversation).map Attachment.info

/-- A draft is encoded as its body, and its payloads stand in one stream. -/
lemma Archive.of_encodeDraft {archive : Archive} {conversation : Conversation} {address : Address}
    {draft : Draft} {dateSent : DateTime} {encoded : EncodedMessage}
    (found : archive.conversation draft.conversation = some conversation)
    (h : archive.encodeDraft address draft dateSent = .ok encoded) :
    encoded.content = (archive.draftBody conversation address draft dateSent).toBytes ∧
      encoded.attachments =
        (archive.draftAttachments draft.conversation).flatMap Attachment.content := by
  obtain ⟨conversation', known, _, rfl⟩ := encode_eq_ok.mp h
  rw [found] at known
  cases known
  exact ⟨by rw [draftBody], rfl⟩

/-- A reader accepts the body of a draft with a name, recipients that do not include the sender,
and attachments that it accepts. -/
lemma Archive.isReadable_draftBody {archive : Archive} {conversation : Conversation}
    {address : Address} {draft : Draft} {dateSent : DateTime} (name : draft.senderName ≠ "")
    (recipients : ∃ a, a ∈ conversation.participants) (others : address ∉ conversation.participants)
    (described : ∀ a ∈ archive.draftAttachments draft.conversation, a.info.IsReadable)
    (few : (archive.draftAttachments draft.conversation).length ≤ UInt32.size) :
    (archive.draftBody conversation address draft dateSent).IsReadable := by
  refine ⟨name, recipients, others, ?_, ?_⟩
  · intro info hinfo
    obtain ⟨a, ha, rfl⟩ := List.mem_map.mp hinfo
    exact described a ha
  · rw [draftBody, List.length_map]
    exact few

/-! ## What is read -/

/-- A message within the limits is opened, if its key is found and its content can be decrypted. -/
lemma WireMessage.decrypt_ok {message : WireMessage} {limits : Limits} {keys : KeyRing σ}
    {privateDataKey key : SymmetricKey} {content : SignedContent} {s s' : σ}
    (size : message.checkSize limits = .ok ())
    (opened : KeySafe.decrypt keys message.keySafe s = (.ok key, s'))
    (read : SignedContent.decrypt key message.content = .ok content) :
    message.decrypt limits keys privateDataKey s =
      (.ok ⟨message.id, message.lastModified, message.dateReceived, key, content,
        ⟨message.metadata, privateDataKey⟩⟩, s') := by
  have checked : (MailM.ofExcept (message.checkSize limits) : MailM σ Unit) s = (.ok (), s) := by
    rw [MailM.ofExcept_apply, size]
  have found : (MailM.ofExcept (SignedContent.decrypt key message.content) : MailM σ _) s' =
      (.ok content, s') := by
    rw [MailM.ofExcept_apply, read]
  rw [decrypt, MailM.bind_ok checked, MailM.bind_ok opened, MailM.bind_ok found]
  rfl

/-- A message whose parts are within the limits passes their check. -/
lemma WireMessage.checkSize_ok {message : WireMessage} {limits : Limits}
    (keySafe : message.keySafe.length ≤ limits.keySafe)
    (content : message.content.length ≤ limits.content)
    (metadata : message.metadata.length ≤ limits.metadata) :
    message.checkSize limits = .ok () :=
  bind_eq_ok.mpr ⟨(), if_pos keySafe, bind_eq_ok.mpr ⟨(), if_pos content, if_pos metadata⟩⟩

/-- A message is decoded, if its body is read, its signature holds and its state is known. -/
lemma OpenedMessage.decode_ok {message : OpenedMessage} {own : Address} {mode : Compression}
    {keys : Directory} {body : ReceivedBody} {state : MessageState}
    (read : message.body own mode = .ok body)
    (verified : message.content.verify body.sender.address keys = .ok ())
    (known : message.stateFor own body.sender.address = .ok state) :
    message.decode own mode true keys =
      .ok ⟨message.record body state, body.sender, body.participants, body.attachments,
        state.delivery⟩ :=
  decodeWith_eq_ok.mpr ⟨body, state, read, fun _ => verified, known, rfl⟩

/-- The state is the one that was told, but what the reader sent is read and done with. -/
lemma OpenedMessage.stateFor_eq {message : OpenedMessage} {own address : Address}
    {read done : Bool}
    (told : message.state.decrypt = .ok ⟨MessageState.latestVersion, read, done, []⟩) :
    message.stateFor own address =
      .ok ⟨MessageState.latestVersion, if address = own then true else read,
        if address = own then true else done, []⟩ := by
  rw [stateFor, told]
  split <;> rfl

/-! ## Both -/

/-- A draft that is sent is read. Let a draft with a sender's name go to recipients that are not the
sender, and let its attachments be described properly. If it is encoded, packed by any compressor
that expanding undoes, sealed for the owner of a pair of primes and signed, and arrives within the
limits of the recipient, with what is told about its state, then it is opened and decoded, and
everything in it is as it was written: only the attachments are numbered by their places, and a
picture without a type or without data is left out. The key is the one of the key safe, under which
the packed payloads are found as well. What the reader sent is read and done with. -/
theorem draft_sent_and_read {archive : Archive} {conversation : Conversation} {address : Address}
    {draft : Draft} {dateSent : DateTime} {encoded packed : EncodedMessage} {mode : Compression}
    (found : archive.conversation draft.conversation = some conversation)
    (name : draft.senderName ≠ "")
    (recipients : ∃ a, a ∈ conversation.participants) (others : address ∉ conversation.participants)
    (described : ∀ a ∈ archive.draftAttachments draft.conversation,
      a.info.filename ≠ "" ∧ a.info.mimeType ≠ "" ∧ a.info.hash ≠ "" ∧
        ∀ c ∈ a.info.hash.toList, Hex.isDigit c = true)
    (few : (archive.draftAttachments draft.conversation).length ≤ UInt32.size)
    (written : archive.encodeDraft address draft dateSent = .ok encoded)
    {pack : Bytes → Except MailError Bytes} (undoes : mode.Undoes pack)
    (made : encoded.packWith pack = .ok packed)
    {recipient signer : PrivateKey} (pair : recipient.numbers.IsPrimePair)
    {recipientId signerId : UInt32} {limits : Limits} {entropy entropy' : Entropy}
    {sealed : SealedMessage}
    (sent : packed.sealFor limits ⟨recipientId, recipient.toPublic⟩ ⟨signerId, signer⟩ entropy =
      .ok (sealed, entropy'))
    (message : WireMessage) (keySafe : message.keySafe = sealed.keySafe)
    (content : message.content = sealed.content) {privateDataKey : SymmetricKey} {read done : Bool}
    (told : SealedState.Tells privateDataKey read done message.metadata) (accepted : Limits)
    (fits : message.keySafe.length ≤ accepted.keySafe ∧ message.content.length ≤ accepted.content ∧
      message.metadata.length ≤ accepted.metadata)
    {keys : KeyRing σ} {s s' : σ} (given : keys .encryption recipientId s = (.ok recipient, s'))
    {directory : Directory} (listed : directory address .signature signerId = some signer.toPublic)
    (own : Address) :
    ∃ opened decoded key e₁,
      message.decrypt accepted keys privateDataKey s = (.ok opened, s') ∧
      opened.decode own mode true directory = .ok decoded ∧
      decoded.record = {
        id := message.id
        lastModified := message.lastModified
        dateReceived := message.dateReceived
        dateSent := dateSent
        sender := address
        text := draft.text
        footer := draft.footer
        key := key
        stateVersion := MessageState.latestVersion
        read := if address = own then true else read
        done := if address = own then true else done
        signatureKeyId := signerId } ∧
      decoded.sender = {
        address := address
        name := draft.senderName
        organization := draft.senderOrganization
        avatar := draft.senderAvatar.filter fun avatar =>
          !avatar.mimeType.isEmpty && !avatar.data.isEmpty } ∧
      (∀ a, a ∈ decoded.participants ↔ (a ∈ conversation.participants ∨ a = address) ∧ a ≠ own) ∧
      decoded.attachments =
        (archive.draftAttachments draft.conversation).zipIdx.map (fun (attachment, position) =>
          { attachment.info with index := UInt32.ofNat position }) ∧
      decoded.delivery = [] ∧
      KeySafe.generate recipientId recipient.toPublic entropy = .ok ((sealed.keySafe, key), e₁) ∧
      SignedContent.signAndEncrypt signerId signer packed.content key e₁ =
        .ok (sealed.content, entropy') ∧
      Attachments.decrypt key sealed.attachments = .ok packed.attachments ∧
      mode.Packs ((archive.draftAttachments draft.conversation).flatMap Attachment.content)
        packed.attachments := by
  obtain ⟨key, e₁, generated, signed, encrypted⟩ := EncodedMessage.of_sealFor sent
  obtain ⟨parts, opened, keyId, data, verified⟩ := SignedContent.opened_of_signAndEncrypt signed
  obtain ⟨text, payloads⟩ := Archive.of_encodeDraft found written
  obtain ⟨expanded, packs⟩ := EncodedMessage.of_packWith undoes made
  rw [payloads] at packs
  -- the reader finds the key first, with it the content, and in the content the body
  have key_again := KeySafe.decrypt_of_generate pair generated given
  rw [← keySafe] at key_again
  rw [← content] at opened
  have readable : (archive.draftBody conversation address draft dateSent).IsReadable :=
    Archive.isReadable_draftBody name recipients others described few
  have body_again : mode.decompress parts.data =
      .ok (archive.draftBody conversation address draft dateSent).toBytes := by
    rw [data, ← text]
    exact expanded
  have body : OpenedMessage.body ⟨message.id, message.lastModified, message.dateReceived, key, parts,
      ⟨message.metadata, privateDataKey⟩⟩ own mode =
        .ok ((archive.draftBody conversation address draft dateSent).receivedBy own) :=
    bind_eq_ok.mpr ⟨_, body_again, ReceivedBody.ofBytes_toBytes.mpr ⟨readable, rfl⟩⟩
  -- the sender that the body names is the one in whose keys the signature is looked up
  have signature := verified address directory listed
  refine ⟨_, _, key, e₁,
    WireMessage.decrypt_ok (WireMessage.checkSize_ok fits.1 fits.2.1 fits.2.2) key_again opened,
    OpenedMessage.decode_ok body signature (OpenedMessage.stateFor_eq told.decrypt), ?_, rfl, ?_, ?_,
    rfl, generated, signed, EncodedMessage.decrypt_of_encryptAttachments encrypted, packs⟩
  · rw [OpenedMessage.record, keyId]
    rfl
  · exact fun a => Body.mem_participantsFor
  · show AttachmentInfo.numbered 0 (List.map _ _) = _
    rw [AttachmentInfo.numbered, List.zipIdx_map, List.map_map]
    rfl

/-! ## A draft from one account to another -/

/-- Two Mersenne primes make a key of 2810 bits. -/
def Rsa.PrivateNumbers.mersenne : PrivateNumbers where
  exponent := 5
  secret := (1 + 4 * ((2 ^ 607 - 2) * (2 ^ 2203 - 2))) / 5
  p := 2 ^ 607 - 1
  q := 2 ^ 2203 - 1
  isPublic := by decide +kernel
  isPrivate := by decide +kernel

/-- The numbers are two primes, by the test of Lucas and Lehmer. -/
lemma Rsa.PrivateNumbers.isPrimePair_mersenne : mersenne.IsPrimePair where
  p_prime := lucas_lehmer_sufficiency 607 (by norm_num) (by norm_num)
  q_prime := lucas_lehmer_sufficiency 2203 (by norm_num) (by norm_num)
  ne := by decide +kernel

/-- A greeting with one attachment of two bytes, compressed, and told to be read but not done
with. -/
theorem draft_sent_and_read_mersenne :
    let ann : Address := ⟨"ann", "example.org", by decide, by decide⟩
    let bob : Address := ⟨"bob", "example.org", by decide, by decide⟩
    let file : Attachment := ⟨⟨0, "a.txt", "text/plain", "", 2, "00"⟩, [1, 2]⟩
    let archive := Archive.ofLists [⟨1, .ofList [bob]⟩] [(1, [file])] []
    let draft : Draft := ⟨1, "Ann", "", none, "Hello", "Bye"⟩
    let date : DateTime := ⟨⟨2024, 2, 29, 12, 30, 0, 0, 60⟩, by decide⟩
    let recipient : PrivateKey := ⟨.encryption, .mersenne⟩
    let signer : PrivateKey := ⟨.signature, .mersenne⟩
    ∃ encoded sealed entropy' metadata opened decoded,
      archive.encodeDraft ann draft date = .ok encoded ∧
      (encoded.compress .gzip).sealFor
        { attachments := (encoded.compress .gzip).attachments.length + Gcm.tagSize }
        ⟨3, recipient.toPublic⟩ ⟨4, signer⟩ (.ofSeed 0) = .ok (sealed, entropy') ∧
      WireMessage.decrypt ⟨7, 0, date, sealed.keySafe, sealed.content, metadata⟩
        ⟨sealed.keySafe.length, sealed.content.length, metadata.length, 0⟩
        (KeyRing.ofList (fun _ _ => true) [(3, recipient)]) ⟨List.replicate 32 0⟩ () =
          (.ok opened, ()) ∧
      opened.decode bob .gzip true (Directory.ofList (fun _ _ => true) [(ann, 4, signer.toPublic)]) =
        .ok decoded ∧
      decoded.record.text = "Hello" ∧ decoded.record.read = true ∧ decoded.record.done = false ∧
      decoded.attachments = [file.info] := by
  have pair := Rsa.PrivateNumbers.isPrimePair_mersenne
  have room : KeySafe.objectSize + 2 * Sha512.size + 2 ≤
      Rsa.PrivateNumbers.mersenne.toPublic.size := by decide +kernel
  have large : Rsa.Pss.minSize ≤
      Rsa.Pss.sizeOfBits (Rsa.PrivateNumbers.mersenne.toPublic.bits - 1) := by decide +kernel
  have small : Rsa.PrivateNumbers.mersenne.toPublic.size < UInt32.size := by decide +kernel
  -- nothing else about the numbers matters, and nothing below may compute with them
  generalize Rsa.PrivateNumbers.mersenne = numbers at pair room large small ⊢
  intro ann bob file archive draft date recipient signer
  have found : archive.conversation draft.conversation = some ⟨1, .ofList [bob]⟩ := rfl
  have sizes : ∀ a ∈ archive.draftAttachments draft.conversation,
      a.info.size.toNat = a.content.length := List.forall_mem_cons.mpr ⟨rfl, nofun⟩
  have described : ∀ a ∈ archive.draftAttachments draft.conversation,
      a.info.filename ≠ "" ∧ a.info.mimeType ≠ "" ∧ a.info.hash ≠ "" ∧
        ∀ c ∈ a.info.hash.toList, Hex.isDigit c = true :=
    List.forall_mem_cons.mpr
      ⟨⟨by decide, by decide, by decide, List.all_eq_true.mp (by decide)⟩, nofun⟩
  obtain ⟨encoded, written⟩ := Archive.exists_encodeDraft ann date found sizes
  obtain ⟨sealed, entropy', sent⟩ : ∃ sealed entropy', (encoded.compress .gzip).sealFor
      { attachments := (encoded.compress .gzip).attachments.length + Gcm.tagSize }
      ⟨3, recipient.toPublic⟩ ⟨4, signer⟩ (.ofSeed 0) = .ok (sealed, entropy') :=
    EncodedMessage.exists_sealFor _ rfl room rfl pair large small (Nat.le_refl _) _
  have length : (SymmetricKey.mk (List.replicate 32 0)).bytes.length = SymmetricKey.size := rfl
  obtain ⟨metadata, _, told⟩ := SealedState.exists_encryptRandom true false [] length (.ofSeed 1)
  have given : (KeyRing.ofList (fun _ _ => true) [(3, recipient)] : KeyRing Unit) .encryption 3 () =
      (.ok recipient, ()) := rfl
  have listed : Directory.ofList (fun _ _ => true) [(ann, 4, signer.toPublic)] ann .signature 4 =
      some signer.toPublic := rfl
  obtain ⟨opened, decoded, _, _, decrypted, read, record, _, _, attachments, _⟩ :=
    draft_sent_and_read found (by decide) ⟨bob, .head _⟩ (by decide) described (by decide) written
      (Compression.undoes_compress .gzip) (EncodedMessage.packWith_compress .gzip encoded) pair sent
      ⟨7, 0, date, sealed.keySafe, sealed.content, metadata⟩ rfl rfl (.inr ⟨[], _, _, told⟩)
      ⟨sealed.keySafe.length, sealed.content.length, metadata.length, 0⟩
      ⟨Nat.le_refl _, Nat.le_refl _, Nat.le_refl _⟩ given listed bob
  refine ⟨encoded, sealed, entropy', metadata, opened, decoded, written, sent, decrypted, read, ?_⟩
  rw [record, attachments]
  exact ⟨rfl, rfl, rfl, rfl⟩

end SealedMail
