import SealedMail.Outgoing.Sealing
import SealedMail.Proofs.KeySafe
import SealedMail.Proofs.SignedContent

/-!
# Sealed messages

A message is sealed in three parts, all under the key that is put into the key safe
(`EncodedMessage.of_sealFor`). Sealing asks for nothing but keys of a proper size and attachments
within the limit (`EncodedMessage.exists_sealFor`).
-/

namespace SealedMail.EncodedMessage

variable {message : EncodedMessage} {limits : Limits} {recipient : Numbered PublicKey}
  {signer : Numbered PrivateKey} {entropy entropy' : Entropy} {sealed : SealedMessage}
  {key : SymmetricKey} {ciphertext : Bytes}

/-- The three parts of a sealed message have one key. -/
lemma of_sealFor (h : message.sealFor limits recipient signer entropy = .ok (sealed, entropy')) :
    ∃ key e₁,
      KeySafe.generate recipient.id recipient.key entropy = .ok ((sealed.keySafe, key), e₁) ∧
      SignedContent.signAndEncrypt signer.id signer.key message.content key e₁ =
        .ok (sealed.content, entropy') ∧
      message.encryptAttachments limits key = .ok sealed.attachments := by
  obtain ⟨⟨keySafe, key⟩, e₁, generated, h⟩ := Random.bind_eq_ok.mp h
  obtain ⟨content, e₂, signed, h⟩ := Random.bind_eq_ok.mp h
  obtain ⟨attachments, e₃, last, h⟩ := Random.bind_eq_ok.mp h
  cases h
  obtain ⟨encrypted, rfl⟩ := Random.ofExcept_eq_ok.mp last
  exact ⟨key, e₁, Random.mapError_eq_ok.mp generated, signed, encrypted⟩

/-- The empty stream would be encrypted to itself. -/
lemma encryptAttachments_eq (message : EncodedMessage) (limits : Limits) (key : SymmetricKey) :
    message.encryptAttachments limits key = do
      let sealed ← Attachments.encrypt key message.attachments
      limits.checkAttachments sealed.length
      return sealed := by
  rw [encryptAttachments]
  cases message.attachments <;> rfl

/-- Attachments are decrypted to what was encrypted. -/
lemma decrypt_of_encryptAttachments (h : message.encryptAttachments limits key = .ok ciphertext) :
    Attachments.decrypt key ciphertext = .ok message.attachments := by
  rw [encryptAttachments_eq] at h
  obtain ⟨sealed, encrypted, h⟩ := bind_eq_ok.mp h
  obtain ⟨_, _, h⟩ := bind_eq_ok.mp h
  rw [pure_eq_ok] at h
  subst h
  rw [Attachments.decrypt, SymmetricKey.decrypt_of_encrypt (mapError_eq_ok.mp encrypted)]

/-- Attachments within the limit can be encrypted under a key of the right length. -/
lemma exists_encryptAttachments (message : EncodedMessage)
    (fits : message.attachments.length + Gcm.tagSize ≤ limits.attachments)
    (length : key.bytes.length = SymmetricKey.size) :
    ∃ ciphertext, message.encryptAttachments limits key = .ok ciphertext := by
  have vector : SymmetricKey.isIvLength SymmetricKey.attachmentsIv.length = true := by decide
  obtain ⟨ciphertext, encrypted, growth⟩ :=
    SymmetricKey.exists_encrypt vector length message.attachments
  have accepted : limits.checkAttachments ciphertext.length = .ok () :=
    if_pos (Nat.le_trans growth fits)
  refine ⟨ciphertext, ?_⟩
  rw [encryptAttachments_eq, bind_eq_ok]
  exact ⟨ciphertext, mapError_eq_ok.mpr encrypted, bind_eq_ok.mpr ⟨(), accepted, rfl⟩⟩

/-- Every message can be sealed with keys of a proper size if its attachments are within the
limit. -/
theorem exists_sealFor (message : EncodedMessage)
    (encryption : recipient.key.purpose = .encryption)
    (room : KeySafe.objectSize + 2 * Sha512.size + 2 ≤ recipient.key.numbers.size)
    (signature : signer.key.purpose = .signature) (pair : signer.key.numbers.IsPrimePair)
    (large : Rsa.Pss.minSize ≤ Rsa.Pss.sizeOfBits (signer.key.numbers.toPublic.bits - 1))
    (small : signer.key.numbers.toPublic.size < UInt32.size)
    (fits : message.attachments.length + Gcm.tagSize ≤ limits.attachments) (entropy : Entropy) :
    ∃ sealed entropy', message.sealFor limits recipient signer entropy = .ok (sealed, entropy') := by
  obtain ⟨keySafe, key, e₁, generated, length, _⟩ :=
    KeySafe.exists_generate recipient.id encryption room entropy
  obtain ⟨content, e₂, signed⟩ := SignedContent.exists_signAndEncrypt signer.id signature pair
    large small message.content length e₁
  obtain ⟨attachments, encrypted⟩ := exists_encryptAttachments message fits length
  refine ⟨⟨keySafe, content, attachments⟩, e₂, ?_⟩
  exact Random.bind_eq_ok.mpr ⟨(keySafe, key), e₁, Random.mapError_eq_ok.mpr generated,
    Random.bind_eq_ok.mpr ⟨content, e₂, signed, Random.bind_eq_ok.mpr ⟨attachments, e₂,
      Random.ofExcept_eq_ok.mpr ⟨encrypted, rfl⟩, rfl⟩⟩⟩

end SealedMail.EncodedMessage
