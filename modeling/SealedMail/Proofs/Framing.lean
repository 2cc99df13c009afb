import SealedMail.Proofs.EndToEnd

/-!
# Frames read back

The frame in an envelope is a key's number, the length of a signature, the signature and a body.
Whoever has the key of the envelope can put any bytes there, so the length is not to be trusted:
it is compared with what follows. Opening and making are inverse to each other, for frames and
their parts and for envelopes and their parts, whatever the length says
(`SignedContent.frames_read_back`).
-/

namespace SealedMail.SignedContent

variable {key : SymmetricKey} {content : SignedContent} {ciphertext : Bytes}

/-- Framed content has some bytes. -/
lemma toBytes_ne_nil (content : SignedContent) : content.toBytes ≠ [] := by
  apply List.ne_nil_of_length_pos
  rw [toBytes, List.length_append, Bytes.length_ofUInt32]
  exact Nat.add_pos_left (by decide) _

/-- Content is opened from the envelope that is made of it, and from no other one. -/
lemma decrypt_eq_ok_iff_encrypt :
    decrypt key ciphertext = .ok content ↔
      content.signature.length < UInt32.size ∧ content.encrypt key = .ok ciphertext := by
  refine ⟨fun opened => ?_, ?_⟩
  · obtain ⟨frame, plain, parts⟩ := decrypt_eq_ok.mp opened
    obtain ⟨short, rfl⟩ := ofBytes_eq_ok.mp parts
    exact ⟨short, SymmetricKey.encrypt_of_decrypt content.toBytes_ne_nil plain⟩
  · rintro ⟨short, encrypted⟩
    exact (decrypt_eq_ok_of_encrypt encrypted).mpr (ofBytes_toBytes content short)

/-- The frame of an envelope is opened exactly if it is long enough for its two numbers and for the
signature that the second number announces, and then what was opened makes the same frame again. So
content is opened from the envelope that is made of it and from no other one, whichever length below
`2 ^ 32` it announces. What is signed under any number with any key is opened with that number and
that body, and the signature is verified by everyone who finds the public half of the key under the
number. It is signed whenever the key has a signature that fits into its field, as every pair of
primes for signatures has if it is neither too small nor too large. -/
theorem frames_read_back (key : SymmetricKey) (whole : key.bytes.length = SymmetricKey.size) :
    (∀ frame : Bytes, ∃ ciphertext,
      key.encrypt SymmetricKey.contentIv frame = .ok ciphertext ∧
      ((∃ content, decrypt key ciphertext = .ok content) ↔
        8 ≤ frame.length ∧ signatureField frame ≤ frame.length - 8) ∧
      ∀ content, decrypt key ciphertext = .ok content ↔
        content.signature.length < UInt32.size ∧ content.toBytes = frame) ∧
    (∀ ciphertext content, decrypt key ciphertext = .ok content ↔
      content.signature.length < UInt32.size ∧ content.encrypt key = .ok ciphertext) ∧
    (∀ (keyId : UInt32) (signingKey : PrivateKey) (data : Bytes) (entropy : Entropy),
      ((∃ envelope entropy', signAndEncrypt keyId signingKey data key entropy =
          .ok (envelope, entropy')) ↔
        ∃ signature, signingKey.sign (entropy.draw Rsa.Pss.saltSize).1 data = .ok signature ∧
          signature.length < UInt32.size) ∧
      ∀ envelope entropy', signAndEncrypt keyId signingKey data key entropy =
          .ok (envelope, entropy') →
        ∃ content, decrypt key envelope = .ok content ∧
          content.keyId = keyId ∧ content.data = data ∧
          ∀ (sender : Address) (keys : Directory),
            keys sender .signature keyId = some signingKey.toPublic →
            content.verify sender keys = .ok ()) ∧
    ∀ (keyId : UInt32) (signingKey : PrivateKey) (data : Bytes) (entropy : Entropy),
      signingKey.purpose = .signature → signingKey.numbers.IsPrimePair →
      Rsa.Pss.minSize ≤ Rsa.Pss.sizeOfBits (signingKey.numbers.toPublic.bits - 1) →
      signingKey.numbers.toPublic.size < UInt32.size →
      ∃ envelope entropy', signAndEncrypt keyId signingKey data key entropy =
        .ok (envelope, entropy') := by
  refine ⟨?_, fun ciphertext content => decrypt_eq_ok_iff_encrypt, ?_, ?_⟩
  · intro frame
    have vector : SymmetricKey.isIvLength SymmetricKey.contentIv.length = true := by decide
    obtain ⟨ciphertext, encrypted, _⟩ := SymmetricKey.exists_encrypt vector whole frame
    refine ⟨ciphertext, encrypted, ?_, ?_⟩
    · rw [← exists_ofBytes]
      exact exists_congr fun content => decrypt_eq_ok_of_encrypt encrypted
    · intro content
      rw [decrypt_eq_ok_of_encrypt encrypted, ofBytes_eq_ok]
  · intro keyId signingKey data entropy
    refine ⟨exists_signAndEncrypt_iff keyId signingKey data whole entropy, ?_⟩
    exact fun envelope entropy' signed => opened_of_signAndEncrypt signed
  · intro keyId signingKey data entropy purpose pair large small
    exact exists_signAndEncrypt keyId purpose pair large small data whole entropy

/-- A frame of nothing but its two numbers, one in which the length is as large as it can be, and a
greeting that is signed. -/
theorem frames_read_back_mersenne :
    let key : SymmetricKey := ⟨List.replicate 32 0⟩
    let signer : PrivateKey := ⟨.signature, .mersenne⟩
    let ann : Address := ⟨"ann", "example.org", by decide, by decide⟩
    ∃ bare long envelope entropy' content,
      key.encrypt SymmetricKey.contentIv [0, 0, 0, 1, 0, 0, 0, 0] = .ok bare ∧
      decrypt key bare = .ok ⟨1, [], []⟩ ∧
      key.encrypt SymmetricKey.contentIv [0, 0, 0, 1, 255, 255, 255, 255, 7] = .ok long ∧
      (¬ ∃ content, decrypt key long = .ok content) ∧
      signAndEncrypt 4 signer [72, 105] key (.ofSeed 0) = .ok (envelope, entropy') ∧
      decrypt key envelope = .ok content ∧ content.keyId = 4 ∧ content.data = [72, 105] ∧
      content.verify ann (Directory.ofList (fun _ _ => true) [(ann, 4, signer.toPublic)]) =
        .ok () := by
  have pair := Rsa.PrivateNumbers.isPrimePair_mersenne
  have large : Rsa.Pss.minSize ≤
      Rsa.Pss.sizeOfBits (Rsa.PrivateNumbers.mersenne.toPublic.bits - 1) := by decide +kernel
  have small : Rsa.PrivateNumbers.mersenne.toPublic.size < UInt32.size := by decide +kernel
  -- nothing else about the numbers matters, and nothing below may compute with them
  generalize Rsa.PrivateNumbers.mersenne = numbers at pair large small ⊢
  intro key signer ann
  obtain ⟨frames, _, signed, succeeds⟩ := frames_read_back key rfl
  obtain ⟨bare, encrypted, _, opened⟩ := frames [0, 0, 0, 1, 0, 0, 0, 0]
  obtain ⟨long, encrypted', refused, _⟩ := frames [0, 0, 0, 1, 255, 255, 255, 255, 7]
  obtain ⟨envelope, entropy', made⟩ := succeeds 4 signer [72, 105] (.ofSeed 0) rfl pair large small
  obtain ⟨content, read, keyId, data, verified⟩ :=
    (signed 4 signer [72, 105] (.ofSeed 0)).2 envelope entropy' made
  have listed : Directory.ofList (fun _ _ => true) [(ann, 4, signer.toPublic)] ann .signature 4 =
      some signer.toPublic := rfl
  refine ⟨bare, long, envelope, entropy', content, encrypted, ?_, encrypted', ?_, made, read, keyId,
    data, verified ann _ listed⟩
  · exact (opened ⟨1, [], []⟩).mpr ⟨by decide, by decide⟩
  · rw [refused]
    decide

end SealedMail.SignedContent
