import SealedMail.Proofs.Rsa.Pss
import SealedMail.Proofs.SymmetricKey
import SealedMail.SignedContent

/-!
# Signed content opened and verified

The parts of a frame are told apart by the length in it: there are some if there is room for them
(`SignedContent.exists_ofBytes`), and they are the ones that make the frame
(`SignedContent.ofBytes_eq_ok`). What was signed and encrypted is opened with the same key, and
verified with the public half of the key that signed it (`SignedContent.opened_of_signAndEncrypt`).
Every text can be signed with a pair of primes that is neither too small nor too large
(`SignedContent.exists_signAndEncrypt`).
-/

namespace SealedMail.SignedContent

/-! ## Frames -/

/-- The length of the signature as a frame gives it, in its second four bytes. -/
def signatureField (frame : Bytes) : Nat := Bytes.toNat ((frame.drop 4).take 4)

/-- A frame has as many bytes as its two numbers at least. -/
lemma le_length_of_ofBytes {frame : Bytes} {content : SignedContent}
    (h : ofBytes frame = .ok content) : 8 ≤ frame.length := by
  rw [ofBytes] at h
  cases first : Bytes.readUInt32? frame with
  | none =>
    rw [first] at h
    cases h
  | some parts =>
    obtain ⟨keyId, behind⟩ := parts
    rw [first] at h
    cases second : Bytes.readUInt32? behind with
    | none =>
      simp only [second] at h
      cases h
    | some parts =>
      obtain ⟨length, rest⟩ := parts
      rw [Bytes.readUInt32?_eq_some.mp first, Bytes.readUInt32?_eq_some.mp second]
      simp only [List.length_append, Bytes.length_ofUInt32]
      omega

/-- A frame of eight bytes or more begins with two numbers. -/
lemma exists_header {frame : Bytes} (long : 8 ≤ frame.length) :
    ∃ keyId length rest,
      frame = Bytes.ofUInt32 keyId ++ (Bytes.ofUInt32 length ++ rest) := by
  cases first : Bytes.readUInt32? frame with
  | none =>
    have := Bytes.readUInt32?_eq_none.mp first
    omega
  | some parts =>
    obtain ⟨keyId, behind⟩ := parts
    obtain rfl := Bytes.readUInt32?_eq_some.mp first
    cases second : Bytes.readUInt32? behind with
    | none =>
      have := Bytes.readUInt32?_eq_none.mp second
      rw [List.length_append, Bytes.length_ofUInt32] at long
      omega
    | some parts =>
      obtain ⟨length, rest⟩ := parts
      obtain rfl := Bytes.readUInt32?_eq_some.mp second
      exact ⟨keyId, length, rest, rfl⟩

/-- Behind the two numbers a frame is divided where the second one says. -/
lemma ofBytes_header (keyId length : UInt32) (rest : Bytes) :
    ofBytes (Bytes.ofUInt32 keyId ++ (Bytes.ofUInt32 length ++ rest)) =
      if rest.length < length.toNat then .error .shortSignature
      else .ok ⟨keyId, rest.take length.toNat, rest.drop length.toNat⟩ := by
  rw [ofBytes, Bytes.readUInt32?_append]
  simp only [Bytes.readUInt32?_append]

/-- The second number of a frame is the length of its signature. -/
lemma signatureField_header (keyId length : UInt32) (rest : Bytes) :
    signatureField (Bytes.ofUInt32 keyId ++ (Bytes.ofUInt32 length ++ rest)) = length.toNat := by
  rw [signatureField, List.drop_left' (Bytes.length_ofUInt32 keyId),
    List.take_left' (Bytes.length_ofUInt32 length), Bytes.ofUInt32,
    Bytes.toNat_ofNat_of_lt length.toNat_lt]

/-- Content is read back from its frame, if its signature is not too long. -/
lemma ofBytes_toBytes (content : SignedContent) (short : content.signature.length < UInt32.size) :
    ofBytes content.toBytes = .ok content := by
  have length : (UInt32.ofNat content.signature.length).toNat = content.signature.length :=
    UInt32.toNat_ofNat_of_lt' short
  rw [toBytes, ofBytes_header, length, if_neg, List.take_left, List.drop_left]
  rw [List.length_append]
  omega

/-- A frame has the parts that make it, and no others. -/
lemma ofBytes_eq_ok {frame : Bytes} {content : SignedContent} :
    ofBytes frame = .ok content ↔
      content.signature.length < UInt32.size ∧ content.toBytes = frame := by
  refine ⟨fun h => ?_, ?_⟩
  · obtain ⟨keyId, length, rest, rfl⟩ := exists_header (le_length_of_ofBytes h)
    rw [ofBytes_header] at h
    split at h
    next => cases h
    next enough =>
      cases h
      have taken : (rest.take length.toNat).length = length.toNat := by
        rw [List.length_take]
        omega
      refine ⟨?_, ?_⟩
      · rw [taken]
        exact length.toNat_lt
      · rw [toBytes, taken, UInt32.ofNat_toNat, List.take_append_drop]
  · rintro ⟨short, rfl⟩
    exact ofBytes_toBytes content short

/-- A frame has parts if there is room for its two numbers and for a signature of the length that
the second one says. -/
lemma exists_ofBytes {frame : Bytes} :
    (∃ content, ofBytes frame = .ok content) ↔
      8 ≤ frame.length ∧ signatureField frame ≤ frame.length - 8 := by
  by_cases long : 8 ≤ frame.length
  · obtain ⟨keyId, length, rest, rfl⟩ := exists_header long
    rw [ofBytes_header, signatureField_header]
    simp only [List.length_append, Bytes.length_ofUInt32] at long ⊢
    split
    next short =>
      refine ⟨nofun, fun fits => ?_⟩
      omega
    next enough =>
      refine ⟨fun _ => ⟨long, ?_⟩, fun _ => ⟨_, rfl⟩⟩
      omega
  · exact ⟨fun ⟨_, h⟩ => absurd (le_length_of_ofBytes h) long, fun fits => absurd fits.1 long⟩

/-- Content is decrypted exactly if a frame is, and this is well formed. -/
lemma decrypt_eq_ok {key : SymmetricKey} {ciphertext : Bytes} {content : SignedContent} :
    decrypt key ciphertext = .ok content ↔
      ∃ frame, key.decrypt SymmetricKey.contentIv ciphertext = .ok frame ∧
        ofBytes frame = .ok content := by
  rw [decrypt]
  cases key.decrypt SymmetricKey.contentIv ciphertext with
  | error cause => exact ⟨nofun, nofun⟩
  | ok plain =>
    simp only [Except.ok.injEq, exists_eq_left']
    cases parts : ofBytes plain with
    | error fault => exact ⟨nofun, nofun⟩
    | ok content' => simp only [Except.ok.injEq]

/-- What was encrypted is opened as the parts that it has. -/
lemma decrypt_eq_ok_of_encrypt {key : SymmetricKey} {frame ciphertext : Bytes}
    {content : SignedContent}
    (encrypted : key.encrypt SymmetricKey.contentIv frame = .ok ciphertext) :
    decrypt key ciphertext = .ok content ↔ ofBytes frame = .ok content := by
  rw [decrypt_eq_ok, SymmetricKey.decrypt_of_encrypt encrypted]
  simp only [Except.ok.injEq, exists_eq_left']

/-! ## Signatures -/

/-- A signature is verified by the public key of the pair it was made with. -/
lemma verify_of_sign {signingKey : PrivateKey} {salt data signature : Bytes}
    (length_salt : salt.length = Rsa.Pss.saltSize)
    (h : signingKey.sign salt data = .ok signature) :
    signingKey.toPublic.verify data signature = .ok true := by
  obtain ⟨purpose, signed⟩ := PrivateKey.sign_eq_ok.mp h
  exact PublicKey.verify_eq_ok.mpr ⟨purpose, (Rsa.Pss.verify_of_sign? length_salt signed).symm⟩

/-- What was signed and encrypted is opened, and accepted from the owner of the signature key. -/
theorem opened_of_signAndEncrypt {keyId : UInt32} {signingKey : PrivateKey} {data envelope : Bytes}
    {key : SymmetricKey} {entropy entropy' : Entropy}
    (h : signAndEncrypt keyId signingKey data key entropy = .ok (envelope, entropy')) :
    ∃ content, decrypt key envelope = .ok content ∧ content.keyId = keyId ∧ content.data = data ∧
      ∀ (sender : Address) (keys : Directory),
        keys sender .signature keyId = some signingKey.toPublic →
        content.verify sender keys = .ok () := by
  obtain ⟨salt, e₁, drawn, h⟩ := Random.bind_eq_ok.mp h
  obtain ⟨content, signed, h⟩ := bind_eq_ok.mp (Random.ofExcept_eq_ok.mp h).1
  obtain ⟨signature, signed, checked⟩ := bind_eq_ok.mp signed
  have encrypted := mapError_eq_ok.mp h
  have verified := verify_of_sign (Random.length_of_bytes drawn) (mapError_eq_ok.mp signed)
  split at checked
  next short =>
    rw [pure_eq_ok] at checked
    subst checked
    refine ⟨⟨keyId, signature, data⟩, ?_, rfl, rfl, ?_⟩
    · exact (decrypt_eq_ok_of_encrypt encrypted).mpr (ofBytes_toBytes ⟨keyId, signature, data⟩ short)
    · intro sender keys found
      rw [verify, found]
      simp only [verified]
  next => cases checked

/-- There is an envelope exactly if there is a signature whose length fits into its field. -/
lemma exists_signAndEncrypt_iff (keyId : UInt32) (signingKey : PrivateKey) (data : Bytes)
    {key : SymmetricKey} (length : key.bytes.length = SymmetricKey.size) (entropy : Entropy) :
    (∃ envelope entropy', signAndEncrypt keyId signingKey data key entropy =
        .ok (envelope, entropy')) ↔
      ∃ signature, signingKey.sign (entropy.draw Rsa.Pss.saltSize).1 data = .ok signature ∧
        signature.length < UInt32.size := by
  refine ⟨?_, ?_⟩
  · rintro ⟨envelope, entropy', h⟩
    obtain ⟨_, _, ⟨⟩, h⟩ := Random.bind_eq_ok.mp h
    obtain ⟨content, signed, _⟩ := bind_eq_ok.mp (Random.ofExcept_eq_ok.mp h).1
    obtain ⟨signature, signed, checked⟩ := bind_eq_ok.mp signed
    split at checked
    next short => exact ⟨signature, mapError_eq_ok.mp signed, short⟩
    next => cases checked
  · rintro ⟨signature, signed, short⟩
    have content : sign keyId signingKey (entropy.draw Rsa.Pss.saltSize).1 data =
        .ok ⟨keyId, signature, data⟩ :=
      bind_eq_ok.mpr ⟨signature, mapError_eq_ok.mpr signed, if_pos short⟩
    have vector : SymmetricKey.isIvLength SymmetricKey.contentIv.length = true := by decide
    obtain ⟨envelope, encrypted, _⟩ :=
      SymmetricKey.exists_encrypt vector length (toBytes ⟨keyId, signature, data⟩)
    exact ⟨envelope, (entropy.draw Rsa.Pss.saltSize).2, Random.bind_eq_ok.mpr ⟨_, _, rfl,
      Random.ofExcept_eq_ok.mpr
        ⟨bind_eq_ok.mpr ⟨_, content, mapError_eq_ok.mpr encrypted⟩, rfl⟩⟩⟩

/-- Whoever has a pair of primes for signatures, neither too small for a digest nor too large for
the field of the length, can sign and encrypt any text. -/
lemma exists_signAndEncrypt (keyId : UInt32) {signingKey : PrivateKey}
    (purpose : signingKey.purpose = .signature) (pair : signingKey.numbers.IsPrimePair)
    (large : Rsa.Pss.minSize ≤ Rsa.Pss.sizeOfBits (signingKey.numbers.toPublic.bits - 1))
    (small : signingKey.numbers.toPublic.size < UInt32.size) (data : Bytes) {key : SymmetricKey}
    (length : key.bytes.length = SymmetricKey.size) (entropy : Entropy) :
    ∃ envelope entropy', signAndEncrypt keyId signingKey data key entropy =
      .ok (envelope, entropy') := by
  have length_salt : (entropy.draw Rsa.Pss.saltSize).1.length = Rsa.Pss.saltSize :=
    Entropy.length_draw _ _
  obtain ⟨signature, signed⟩ := Rsa.Pss.exists_sign? pair length_salt large data
  refine (exists_signAndEncrypt_iff keyId signingKey data length entropy).mpr ⟨signature, ?_, ?_⟩
  · exact PrivateKey.sign_eq_ok.mpr ⟨purpose, signed⟩
  · rw [Rsa.Pss.length_of_sign? signed]
    exact small

end SealedMail.SignedContent
