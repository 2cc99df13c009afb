import SealedMail.Proofs.Attachment.Checking
import SealedMail.Proofs.Attachment.Receiving
import SealedMail.Proofs.Encoding
import SealedMail.Proofs.Packing
import SealedMail.Proofs.SymmetricKey
import SealedMail.Store.Drafts

/-!
# Attachments sent and received

The payloads that are sent are the payloads that are delivered. On the way they are put together,
packed and encrypted, and the ciphertext is divided into pieces, the data that it expands to into
chunks, and that into slices: three partitions that have nothing to do with each other. Each of them
is only known by what it is put together to, and what was packed by what it expands to. Without any
payload nothing is packed and nothing encrypted, and nothing is decrypted and expanded, but all
sinks are made and closed.
-/

namespace SealedMail

variable {σ κ : Type}

/-! ## Sending -/

namespace Attachments

/-- Payloads that were put together are cut apart at their sizes. -/
lemma slices_flatMap {attachments : List Attachment}
    (sizes : ∀ a ∈ attachments, a.info.size.toNat = a.content.length) :
    slices (attachments.map fun a => a.info.slot) (attachments.flatMap Attachment.content) =
      attachments.map fun a => (a.info.slot, a.content) := by
  induction attachments with
  | nil => rfl
  | cons attachment rest ih =>
    obtain ⟨first, later⟩ := List.forall_mem_cons.mp sizes
    rw [List.map_cons, List.flatMap_cons, slices_cons_append first.symm, ih later]
    rfl

/-- Slots of the right sizes take the payloads together. -/
lemma totalSize_map_slot {attachments : List Attachment}
    (sizes : ∀ a ∈ attachments, a.info.size.toNat = a.content.length) :
    totalSize (attachments.map fun a => a.info.slot) =
      (attachments.flatMap Attachment.content).length := by
  induction attachments with
  | nil => rfl
  | cons attachment rest ih =>
    obtain ⟨first, later⟩ := List.forall_mem_cons.mp sizes
    rw [List.map_cons, totalSize_cons, ih later, List.flatMap_cons, List.length_append, ← first]
    rfl

end Attachments

/-! ## Receiving -/

namespace Attachments

variable {key : SymmetricKey} {mode : Compression} {limits : Limits}

/-- What was packed and encrypted is all of the data that the ciphertext gives. -/
lemma expand_of_encrypt {stream packed ciphertext : Bytes} (packs : mode.Packs stream packed)
    (encrypted : key.encrypt SymmetricKey.attachmentsIv packed = .ok ciphertext)
    (fits : ciphertext.length ≤ limits.attachments) (chunkSize : Nat) :
    ∃ chunks, expand key mode limits chunkSize ciphertext = (chunks, .ok ()) ∧
      chunks.flatten = stream := by
  -- an empty stream is neither packed nor encrypted, so nothing may be undone either
  have empty : ciphertext = [] ↔ stream = [] :=
    (SymmetricKey.eq_nil_of_encrypt encrypted).trans packs.eq_nil_iff
  cases packs with
  | none =>
    cases encrypted
    exact ⟨[], if_neg (Nat.not_lt_zero _), rfl⟩
  | some nonempty expanded =>
    have decrypted : decrypt key ciphertext = .ok packed := by
      rw [decrypt, SymmetricKey.decrypt_of_encrypt encrypted]
    exact expand_of_decompress fits (mt empty.mp nonempty) decrypted expanded chunkSize

/-- A stream that was encrypted as it is comes out of its ciphertext. -/
lemma expand_encrypt {stream : Bytes} (nonempty : stream ≠ [])
    (length : key.bytes.length = SymmetricKey.size)
    (fits : stream.length + Gcm.tagSize ≤ limits.attachments) (chunkSize : Nat) :
    ∃ chunks, expand key .none limits chunkSize
        (Gcm.encrypt key.bytes SymmetricKey.attachmentsIv stream) = (chunks, .ok ()) ∧
      chunks.flatten = stream := by
  have encrypted : key.encrypt SymmetricKey.attachmentsIv stream = .ok _ :=
    SymmetricKey.encrypt_eq nonempty (by decide) length
  refine expand_of_encrypt (.some nonempty rfl) encrypted ?_ chunkSize
  rw [Gcm.length_encrypt]
  exact fits

/-- Receiving the ciphertext of a stream that was encrypted as it is ends as a run over this stream
does, in whatever pieces the ciphertext comes. -/
lemma receive_encrypted (factory : SinkFactory σ κ) (slots : List Slot) {stream : Bytes}
    {pieces : List Bytes} (nonempty : stream ≠ []) (length : key.bytes.length = SymmetricKey.size)
    (fits : stream.length + Gcm.tagSize ≤ limits.attachments)
    (sealed : pieces.flatten = Gcm.encrypt key.bytes SymmetricKey.attachmentsIv stream)
    (chunkSize : Nat) (s : σ) :
    ∃ result s', receive factory slots key .none limits chunkSize pieces s = (result, s') ∧
      (expand key .none limits chunkSize pieces.flatten).1.flatten = stream ∧
      Splitter.Ends factory slots stream s result s' := by
  obtain ⟨chunks, expanded, rfl⟩ := expand_encrypt nonempty length fits chunkSize
  rw [← sealed] at expanded
  obtain ⟨result, s', received, ends⟩ :=
    receive_ends factory slots key .none limits chunkSize pieces s
  rw [expanded] at ends ⊢
  refine ⟨result, s', received, rfl, ?_⟩
  cases ends with
  | split ends => exact ends
  | broken failed _ => cases failed

/-- A stream that fills the slots is delivered from its ciphertext, in whatever pieces this
comes. -/
lemma receive_ok {factory : SinkFactory σ κ} {slots : List Slot} {stream packed : Bytes}
    (accepts : factory.AcceptsAll slots stream) (whole : stream.length = totalSize slots)
    (packs : mode.Packs stream packed) {pieces : List Bytes}
    (encrypted : key.encrypt SymmetricKey.attachmentsIv packed = .ok pieces.flatten)
    (fits : pieces.flatten.length ≤ limits.attachments) (chunkSize : Nat) (s : σ) :
    ∃ s', receive factory slots key mode limits chunkSize pieces s = (.ok (), s') ∧
      factory.Delivers (slices slots stream) s s' := by
  obtain ⟨chunks, expanded, rfl⟩ := expand_of_encrypt packs encrypted fits chunkSize
  obtain ⟨result, s', received, ends⟩ :=
    receive_ends factory slots key mode limits chunkSize pieces s
  rw [expanded] at ends
  refine ⟨s', ?_⟩
  cases ends with
  | split ends =>
    cases ends with
    | delivered _ delivers => exact ⟨received, delivers⟩
    | cutShort short _ => exact absurd whole (Nat.ne_of_lt short)
    | stopped begins stops =>
      obtain ⟨more, stream⟩ := begins
      rw [← stream] at accepts whole
      obtain ⟨_, long, _⟩ := stops.of_accepts accepts
      rw [List.length_append] at whole
      omega
  | broken failed _ => cases failed

end Attachments

/-! ## Both -/

/-- A slot that describes a payload names it. -/
lemma Store.names_slot_describe (position : Nat) (filename mimeType note : String)
    (content : Bytes) :
    (Store.describe position filename mimeType note content).slot.Names content :=
  Hex.map_toLower_encode (Sha512.digest content)

/-- Attachments that are sent are delivered. Those of the lengths and digests that they declare are
put together, and packed by any compressor that expanding undoes, which fails only if this does, and
a key of the right length encrypts them. Nothing is made of no payload. However the ciphertext comes
in pieces, within the limit, and whatever the size of the chunks in which it is expanded, receiving
it succeeds behind a check of digests, and each sink gets the payload it was made for. -/
theorem attachments_sent_and_received {factory : SinkFactory σ κ} (reliable : factory.Reliable)
    {attachments : List Attachment}
    (sizes : ∀ a ∈ attachments, a.info.size.toNat = a.content.length)
    (named : ∀ a ∈ attachments, a.info.slot.Names a.content) {key : SymmetricKey}
    (length : key.bytes.length = SymmetricKey.size) {mode : Compression}
    {pack : Bytes → Except MailError Bytes} (undoes : mode.Undoes pack) (content : Bytes)
    (limits : Limits) (chunkSize : Nat) (s : σ) :
    ∃ index stream, Attachments.concat attachments = .ok (index, stream) ∧
      (∀ e, EncodedMessage.packWith pack ⟨content, stream⟩ = .error e ↔
        pack content = .error e ∨
          (∃ b, pack content = .ok b) ∧ stream ≠ [] ∧ pack stream = .error e) ∧
      ∀ packed, EncodedMessage.packWith pack ⟨content, stream⟩ = .ok packed →
        ∃ ciphertext, Attachments.encrypt key packed.attachments = .ok ciphertext ∧
          (ciphertext = [] ↔ stream = []) ∧
          ∀ pieces : List Bytes, pieces.flatten = ciphertext →
            ciphertext.length ≤ limits.attachments →
            ∃ s', Attachments.receive factory.checked (index.map AttachmentInfo.slot) key mode
                limits chunkSize pieces s = (.ok (), s') ∧
              factory.Delivers (attachments.map fun a => (a.info.slot, a.content)) s s' := by
  refine ⟨_, _, Attachments.concat_eq sizes, fun e => EncodedMessage.packWith_eq_error, ?_⟩
  intro packed made
  obtain ⟨_, packs⟩ := EncodedMessage.of_packWith undoes made
  have vector : SymmetricKey.isIvLength SymmetricKey.attachmentsIv.length = true := by decide
  obtain ⟨ciphertext, encrypted, _⟩ :=
    SymmetricKey.exists_encrypt vector length packed.attachments
  refine ⟨ciphertext, mapError_eq_ok.mpr encrypted,
    (SymmetricKey.eq_nil_of_encrypt encrypted).trans packs.eq_nil_iff, ?_⟩
  intro pieces rfl fits
  rw [List.map_map]
  have accepts : factory.checked.AcceptsAll (attachments.map fun a => a.info.slot)
      (attachments.flatMap Attachment.content) := by
    rw [SinkFactory.AcceptsAll, Attachments.slices_flatMap sizes]
    intro part mem
    obtain ⟨a, ha, rfl⟩ := List.mem_map.mp mem
    exact reliable.accepts_checked (named a ha)
  have whole := (Attachments.totalSize_map_slot sizes).symm
  obtain ⟨s', received, delivers⟩ :=
    Attachments.receive_ok accepts whole packs encrypted fits chunkSize s
  rw [Attachments.slices_flatMap sizes] at delivers
  exact ⟨s', received, delivers.of_checked⟩

/-- Two bytes and an empty payload, with a ciphertext that comes in two pieces. -/
theorem attachments_sent_and_received_recorded :
    let first := Store.describe 0 "a" "text/plain" "" [1, 2]
    let second := Store.describe 1 "b" "text/plain" "" []
    let key : SymmetricKey := ⟨List.replicate 32 0⟩
    let ciphertext := Gcm.encrypt key.bytes SymmetricKey.attachmentsIv [1, 2]
    ∃ s', Attachments.receive (SinkFactory.recording fun _ => false).checked
        [first.slot, second.slot] key .none {} 0 [ciphertext.take 1, ciphertext.drop 1] [] =
          (.ok (), s') ∧
      (SinkFactory.recording fun _ => false).Delivers
        [(first.slot, [1, 2]), (second.slot, [])] [] s' := by
  intro first second key ciphertext
  have sizes : ∀ a ∈ [Attachment.mk first [1, 2], Attachment.mk second []],
      a.info.size.toNat = a.content.length :=
    List.forall_mem_cons.mpr ⟨rfl, List.forall_mem_cons.mpr ⟨rfl, nofun⟩⟩
  have named : ∀ a ∈ [Attachment.mk first [1, 2], Attachment.mk second []],
      a.info.slot.Names a.content :=
    List.forall_mem_cons.mpr ⟨Store.names_slot_describe _ _ _ _ _,
      List.forall_mem_cons.mpr ⟨Store.names_slot_describe _ _ _ _ _, nofun⟩⟩
  have length : key.bytes.length = SymmetricKey.size := rfl
  obtain ⟨index, stream, put, _, received⟩ :=
    attachments_sent_and_received Splitter.recording_reliable sizes named length
      (Compression.undoes_compress .none) [] {} 0 []
  rw [Attachments.concat_eq sizes] at put
  cases put
  obtain ⟨sealed, encrypted, _, received⟩ :=
    received _ (EncodedMessage.packWith_compress .none ⟨[], [1, 2]⟩)
  -- without compression the text of the cipher is the payload
  have whole : key.encrypt SymmetricKey.attachmentsIv [1, 2] = .ok ciphertext :=
    SymmetricKey.encrypt_eq (List.cons_ne_nil _ _) (by decide) length
  have same : sealed = ciphertext := by
    change (key.encrypt SymmetricKey.attachmentsIv [1, 2]).mapError .crypto = .ok sealed
      at encrypted
    rw [whole] at encrypted
    exact (Except.ok.inj encrypted).symm
  subst same
  refine received [ciphertext.take 1, ciphertext.drop 1] ?_ ?_
  · rw [List.flatten_cons, List.flatten_singleton, List.take_append_drop]
  · change (Gcm.encrypt _ _ _).length ≤ _
    rw [Gcm.length_encrypt]
    decide

end SealedMail
