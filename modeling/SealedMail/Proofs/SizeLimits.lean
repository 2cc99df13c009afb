import SealedMail.Proofs.Attachment.Receiving
import SealedMail.Proofs.EndToEnd

/-!
# Size limits on both sides

How long the parts of a sealed message are is known beforehand: the key safe by the recipient's key
(`KeySafe.length_of_generate`), the content by the signer's key and the body
(`SignedContent.length_of_signAndEncrypt`). A sender holds the attachments to its limits, so that a
recipient with the same limits takes them, in any pieces. The sizes of the key safe and the content
are left to the recipient, who refuses a message that is too large (`sealed_sizes_accepted`,
`sealed_too_large`).
-/

namespace SealedMail

/-! ## Lengths -/

/-- Bytes of a key safe for a recipient. -/
def KeySafe.sizeFor (recipient : PublicKey) : Nat := 4 + recipient.numbers.size

/-- Bytes of an envelope: what is known of a signature, the signature, the body, and the tag. -/
def SignedContent.sizeFor (signer : PrivateKey) (data : Bytes) : Nat :=
  8 + signer.numbers.toPublic.size + data.length + Gcm.tagSize

variable {entropy entropy' : Entropy}

/-- A ciphertext has the size of the key. -/
lemma PublicKey.length_of_encrypt {key : PublicKey} {seed text ciphertext : Bytes}
    (h : key.encrypt seed text = .ok ciphertext) : ciphertext.length = key.numbers.size :=
  (Rsa.Oaep.of_encrypt? (encrypt_eq_ok.mp h).2).2

/-- A key safe is as long as the key of its recipient tells. -/
lemma KeySafe.length_of_generate {keyId : UInt32} {recipient : PublicKey} {safe : Bytes}
    {key : SymmetricKey} (h : generate keyId recipient entropy = .ok ((safe, key), entropy')) :
    safe.length = sizeFor recipient := by
  obtain ⟨_, seed, ciphertext, _, encrypted, rfl⟩ := of_generate h
  rw [List.length_append, Bytes.length_ofUInt32, PublicKey.length_of_encrypt encrypted, sizeFor]

/-- A signature has the size of the key. -/
lemma PrivateKey.length_of_sign {key : PrivateKey} {salt text signature : Bytes}
    (h : key.sign salt text = .ok signature) : signature.length = key.numbers.toPublic.size :=
  Rsa.Pss.length_of_sign? (sign_eq_ok.mp h).2

/-- A text that is not empty grows by a tag. -/
lemma SymmetricKey.length_of_encrypt {key : SymmetricKey} {iv text ciphertext : Bytes}
    (nonempty : text ≠ []) (h : key.encrypt iv text = .ok ciphertext) :
    ciphertext.length = text.length + Gcm.tagSize := by
  obtain ⟨_, _, rfl⟩ := (encrypt_eq_ok nonempty).mp h
  exact Gcm.length_encrypt _ _ _

/-- Framed content has eight bytes more than signature and data. -/
lemma SignedContent.length_toBytes (content : SignedContent) :
    content.toBytes.length = 8 + content.signature.length + content.data.length := by
  simp only [toBytes, List.length_append, Bytes.length_ofUInt32]
  omega

/-- Sealed content is as long as key and data tell. -/
lemma SignedContent.length_of_signAndEncrypt {keyId : UInt32} {signer : PrivateKey}
    {data envelope : Bytes} {key : SymmetricKey}
    (h : signAndEncrypt keyId signer data key entropy = .ok (envelope, entropy')) :
    envelope.length = sizeFor signer data := by
  obtain ⟨salt, _, _, h⟩ := Random.bind_eq_ok.mp h
  obtain ⟨content, signed, h⟩ := bind_eq_ok.mp (Random.ofExcept_eq_ok.mp h).1
  obtain ⟨signature, signed, checked⟩ := bind_eq_ok.mp signed
  have length := PrivateKey.length_of_sign (mapError_eq_ok.mp signed)
  split at checked
  next =>
    cases checked
    have nonempty : toBytes ⟨keyId, signature, data⟩ ≠ [] := by
      apply List.ne_nil_of_length_pos
      rw [length_toBytes]
      omega
    rw [SymmetricKey.length_of_encrypt nonempty (mapError_eq_ok.mp h), length_toBytes, sizeFor,
      length]
  next => cases checked

/-- Attachments that were encrypted are within the limit. -/
lemma EncodedMessage.length_of_encryptAttachments {message : EncodedMessage} {limits : Limits}
    {key : SymmetricKey} {ciphertext : Bytes}
    (h : message.encryptAttachments limits key = .ok ciphertext) :
    ciphertext.length ≤ limits.attachments := by
  rw [encryptAttachments_eq] at h
  obtain ⟨sealed, _, h⟩ := bind_eq_ok.mp h
  obtain ⟨_, checked, h⟩ := bind_eq_ok.mp h
  cases h
  rw [Limits.checkAttachments] at checked
  split at checked
  next fits => exact fits
  next => cases checked

/-! ## Limits -/

/-- A part passes the check exactly if it is within its limit. -/
lemma Limits.check_eq_ok {limits : Limits} {part : Part} {size : Nat} :
    limits.check part size = .ok () ↔ size ≤ limits.ofPart part := by
  rw [check]
  split
  next fits => exact ⟨fun _ => fits, fun _ => rfl⟩
  next large => exact ⟨nofun, fun fits => absurd fits large⟩

/-- A message passes the check exactly if its parts are within their limits. -/
lemma WireMessage.checkSize_eq_ok {message : WireMessage} {limits : Limits} :
    message.checkSize limits = .ok () ↔
      message.keySafe.length ≤ limits.keySafe ∧ message.content.length ≤ limits.content ∧
        message.metadata.length ≤ limits.metadata := by
  refine ⟨fun h => ?_, fun ⟨keySafe, content, metadata⟩ => checkSize_ok keySafe content metadata⟩
  obtain ⟨_, keySafe, h⟩ := bind_eq_ok.mp h
  obtain ⟨_, content, metadata⟩ := bind_eq_ok.mp h
  exact ⟨Limits.check_eq_ok.mp keySafe, Limits.check_eq_ok.mp content,
    Limits.check_eq_ok.mp metadata⟩

/-- Sender and recipient with the same limits. The attachments of what is sealed are taken, in
whatever pieces they come. The key safe and the content are accepted exactly if the key of the
recipient, and the key of the signer with the body, are not too large for the limits, which the
sender does not ask. -/
theorem sealed_sizes_accepted {message : EncodedMessage} {limits : Limits}
    {recipient : Numbered PublicKey} {signer : Numbered PrivateKey} {sealed : SealedMessage}
    (sent : message.sealFor limits recipient signer entropy = .ok (sealed, entropy')) :
    (limits.check .keySafe sealed.keySafe.length = .ok () ↔
        KeySafe.sizeFor recipient.key ≤ limits.keySafe) ∧
      (limits.check .content sealed.content.length = .ok () ↔
        SignedContent.sizeFor signer.key message.content ≤ limits.content) ∧
      (∀ wire : WireMessage, wire.keySafe = sealed.keySafe → wire.content = sealed.content →
        (wire.checkSize limits = .ok () ↔
          KeySafe.sizeFor recipient.key ≤ limits.keySafe ∧
            SignedContent.sizeFor signer.key message.content ≤ limits.content ∧
            wire.metadata.length ≤ limits.metadata)) ∧
      ∀ {κ : Type} (key : SymmetricKey) (mode : Compression) (splitter : Splitter κ)
        (chunkSize : Nat) (pieces : List Bytes), pieces.flatten = sealed.attachments →
        ∃ pipeline, pieces.forM Pipeline.write
            (Pipeline.start key mode splitter limits chunkSize) = (.ok (), pipeline) ∧
          pipeline.ciphertext = sealed.attachments := by
  obtain ⟨key, e₁, generated, signed, encrypted⟩ := EncodedMessage.of_sealFor sent
  have keySafe := KeySafe.length_of_generate generated
  have content := SignedContent.length_of_signAndEncrypt signed
  have fits := EncodedMessage.length_of_encryptAttachments encrypted
  refine ⟨?_, ?_, ?_, ?_⟩
  · rw [Limits.check_eq_ok, keySafe, Limits.ofPart]
  · rw [Limits.check_eq_ok, content, Limits.ofPart]
  · intro wire safe parts
    rw [WireMessage.checkSize_eq_ok, safe, parts, keySafe, content]
  · intro κ key mode splitter chunkSize pieces same
    have room : 0 + pieces.flatten.length ≤ limits.attachments := by
      rw [same, Nat.zero_add]
      exact fits
    refine ⟨_, (Pipeline.start key mode splitter limits chunkSize).forM_write_eq room, ?_⟩
    rw [Pipeline.ciphertext, Pipeline.start, List.append_nil, List.reverse_reverse, same]

/-! ## Messages under the usual limits -/

/-- The key made of two Mersenne primes has 352 bytes. -/
lemma Rsa.PrivateNumbers.size_mersenne : mersenne.toPublic.size = 352 := by decide +kernel

/-- Every message is sealed with keys made of two Mersenne primes, if its attachments are within the
limit. -/
lemma EncodedMessage.exists_sealFor_mersenne (message : EncodedMessage) {limits : Limits}
    (fits : message.attachments.length + Gcm.tagSize ≤ limits.attachments) :
    ∃ sealed entropy', message.sealFor limits
      ⟨3, ⟨.encryption, Rsa.PrivateNumbers.mersenne.toPublic⟩⟩ ⟨4, ⟨.signature, .mersenne⟩⟩
      (.ofSeed 0) = .ok (sealed, entropy') := by
  have pair := Rsa.PrivateNumbers.isPrimePair_mersenne
  have room : KeySafe.objectSize + 2 * Sha512.size + 2 ≤
      Rsa.PrivateNumbers.mersenne.toPublic.size := by
    rw [Rsa.PrivateNumbers.size_mersenne]
    decide
  have large : Rsa.Pss.minSize ≤
      Rsa.Pss.sizeOfBits (Rsa.PrivateNumbers.mersenne.toPublic.bits - 1) := by decide +kernel
  have small : Rsa.PrivateNumbers.mersenne.toPublic.size < UInt32.size := by
    rw [Rsa.PrivateNumbers.size_mersenne]
    decide
  -- nothing else about the numbers matters, and nothing below may compute with them
  generalize Rsa.PrivateNumbers.mersenne = numbers at pair room large small ⊢
  exact message.exists_sealFor rfl room rfl pair large small fits _

/-- A greeting with one attachment of two bytes. -/
theorem sealed_sizes_accepted_greeting :
    let recipient : PublicKey := ⟨.encryption, Rsa.PrivateNumbers.mersenne.toPublic⟩
    let signer : PrivateKey := ⟨.signature, .mersenne⟩
    let message : EncodedMessage := ⟨[72, 105], [1, 2]⟩
    let limits : Limits := {}
    ∃ sealed entropy', message.sealFor limits ⟨3, recipient⟩ ⟨4, signer⟩ (.ofSeed 0) =
        .ok (sealed, entropy') ∧
      limits.check .keySafe sealed.keySafe.length = .ok () ∧
      limits.check .content sealed.content.length = .ok () ∧
      ∃ pipeline, [sealed.attachments].forM Pipeline.write
          (Pipeline.start ⟨[]⟩ .none (⟨[], none, 0⟩ : Splitter Unit) limits 0) =
            (.ok (), pipeline) ∧
        pipeline.ciphertext = sealed.attachments := by
  intro recipient signer message limits
  have fits : message.attachments.length + Gcm.tagSize ≤ limits.attachments := by decide
  obtain ⟨sealed, entropy', sent⟩ := message.exists_sealFor_mersenne fits
  obtain ⟨keySafe, content, _, attachments⟩ := sealed_sizes_accepted sent
  refine ⟨sealed, entropy', sent, keySafe.mpr ?_, content.mpr ?_, attachments _ _ _ _ _ ?_⟩
  · rw [KeySafe.sizeFor, Rsa.PrivateNumbers.size_mersenne]
    decide
  · rw [SignedContent.sizeFor, Rsa.PrivateNumbers.size_mersenne]
    decide
  · exact List.append_nil _

/-- A text of 64 KiB is sealed under the usual limits, and every recipient with these limits must
refuse it. -/
theorem sealed_too_large :
    let recipient : PublicKey := ⟨.encryption, Rsa.PrivateNumbers.mersenne.toPublic⟩
    let signer : PrivateKey := ⟨.signature, .mersenne⟩
    let message : EncodedMessage := ⟨List.replicate (64 * 1024) 97, []⟩
    let limits : Limits := {}
    ∃ sealed entropy', message.sealFor limits ⟨3, recipient⟩ ⟨4, signer⟩ (.ofSeed 0) =
        .ok (sealed, entropy') ∧
      ∀ wire : WireMessage, wire.keySafe = sealed.keySafe → wire.content = sealed.content →
        wire.checkSize limits = .error (.invalid (.tooLarge .content sealed.content.length)) := by
  intro recipient signer message limits
  have fits : message.attachments.length + Gcm.tagSize ≤ limits.attachments := by decide
  obtain ⟨sealed, entropy', sent⟩ := message.exists_sealFor_mersenne fits
  refine ⟨sealed, entropy', sent, fun wire keySafe content => ?_⟩
  obtain ⟨key, e₁, generated, signed, _⟩ := EncodedMessage.of_sealFor sent
  have accepted : limits.check .keySafe wire.keySafe.length = .ok () := by
    rw [keySafe, KeySafe.length_of_generate generated, KeySafe.sizeFor,
      Rsa.PrivateNumbers.size_mersenne]
    decide
  have refused : limits.check .content wire.content.length =
      .error (.invalid (.tooLarge .content sealed.content.length)) := by
    have size : sealed.content.length = 8 + 352 + 64 * 1024 + Gcm.tagSize := by
      rw [SignedContent.length_of_signAndEncrypt signed, SignedContent.sizeFor,
        Rsa.PrivateNumbers.size_mersenne, List.length_replicate]
    rw [content, size]
    rfl
  rw [WireMessage.checkSize, accepted, refused]
  rfl

end SealedMail
