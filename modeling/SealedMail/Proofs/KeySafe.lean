import SealedMail.KeySafe
import SealedMail.Proofs.Base64
import SealedMail.Proofs.Json.RoundTrip
import SealedMail.Proofs.Results
import SealedMail.Proofs.Rsa.Oaep

/-!
# Keys taken out of their safes

The key that a key safe was made with is the key that its recipient finds in it
(`KeySafe.decrypt_of_generate`). The object in a key safe always has the same size
(`KeySafe.length_toBytes_toJson`), so a key safe can be made for every key that has room for it
(`KeySafe.exists_generate`).
-/

namespace SealedMail.KeySafe

open Json (Fits)

variable {σ : Type}

/-- The object of a key is not nested. -/
lemma fits_toJson (key : SymmetricKey) : Fits 1 (toJson key) := by
  refine .ofFields ?_
  simp only [List.forall_mem_cons]
  exact ⟨.integer (by decide) (by decide), .string _, .string _, .string _, nofun⟩

/-- A key is read back from its object. -/
lemma ofJson_toJson {key : SymmetricKey} (length : key.bytes.length = SymmetricKey.size) :
    ofJson (toJson key) = .ok key := by
  have nonempty : key.bytes.isEmpty = false := by
    cases bytes : key.bytes with
    | nil =>
      rw [bytes] at length
      cases length
    | cons x rest => rfl
  have bytes : Field.base64 false (.string key.toBase64) = .ok key.bytes := by
    simp [Field.base64, Field.string, SymmetricKey.toBase64, nonempty]
  have version : Field.unsigned (.integer format.toNat) = .ok format := Field.unsigned_toNat format
  have isObject : (toJson key).isObject = true := rfl
  have fields : (toJson key).field "msgFormat" = .integer format.toNat ∧
      (toJson key).field "symmCipher" = .string cipher ∧
      (toJson key).field "hashAlgo" = .string hash ∧
      (toJson key).field "symmKey" = .string key.toBase64 := by
    simp [toJson, Json.field_ofFields, Json.lookup_cons_eq_ite]
  have names : cipher ≠ "" ∧ hash ≠ "" := by decide
  simp [ofJson, isObject, fields, version, bytes, length, names]

/-- A key is read back from the ciphertext of its object, which has some bytes. -/
lemma ofCiphertext_of_encrypt {privateKey : PrivateKey} (pair : privateKey.numbers.IsPrimePair)
    {key : SymmetricKey} (length : key.bytes.length = SymmetricKey.size) {seed ciphertext : Bytes}
    (length_seed : seed.length = Sha512.size)
    (h : privateKey.toPublic.encrypt seed (toJson key).toBytes = .ok ciphertext) :
    ofCiphertext privateKey ciphertext = .ok key ∧ ciphertext ≠ [] := by
  obtain ⟨purpose, encrypted⟩ := PublicKey.encrypt_eq_ok.mp h
  have plain : privateKey.decrypt ciphertext = .ok (toJson key).toBytes :=
    PrivateKey.decrypt_eq_ok.mpr
      ⟨purpose, Rsa.Oaep.decrypt?_of_encrypt? pair length_seed encrypted⟩
  have json : Json.ofBytes? (toJson key).toBytes = some (toJson key) :=
    ((fits_toJson key).mono (by decide)).ofBytes?_toBytes
  refine ⟨?_, ?_⟩
  · rw [ofCiphertext, plain]
    simp only [json]
    exact ofJson_toJson length
  -- a ciphertext is as long as the modulus, and padding needs room
  · rintro rfl
    obtain ⟨fits, empty⟩ := Rsa.Oaep.of_encrypt? encrypted
    rw [← empty] at fits
    cases fits

/-! ## Key safes that can be made -/

/-- Bytes in the object that holds a key. -/
def objectSize : Nat := 120

/-- The text of an object that holds a key. -/
lemma chars_toJson (key : SymmetricKey) : (toJson key).chars =
    "\x7b\"hashAlgo\":\"SHA-512\",\"msgFormat\":1,\"symmCipher\":\"AES-256/GCM\",\"symmKey\":\"".toList ++
      (key.toBase64.toList ++ ['"', '}']) := by
  have plain : ∀ c ∈ '=' :: Base64.digits, (Json.escapeChar c == [c]) = true :=
    List.all_eq_true.mp (by decide +kernel)
  have escaped : key.toBase64.toList.flatMap Json.escapeChar = key.toBase64.toList := by
    rw [SymmetricKey.toBase64,
      List.flatMap_congr fun c hc => eq_of_beq (plain c (Base64.mem_encode hc)),
      List.flatMap_singleton']
  have fields : toJson key = .object [("hashAlgo", .string hash),
      ("msgFormat", .integer format.toNat), ("symmCipher", .string cipher),
      ("symmKey", .string key.toBase64)] := by
    have cipher_behind : "msgFormat".toList < "symmCipher".toList := by decide
    have key_behind : "msgFormat".toList < "symmKey".toList := by decide
    have key_last : "symmCipher".toList < "symmKey".toList := by decide
    have hash_first : "hashAlgo".toList < "msgFormat".toList := by decide
    simp only [toJson, Json.ofFields, List.foldl_cons, List.foldl_nil, Json.put_nil,
      Json.put_cons_of_gt cipher_behind, Json.put_cons_of_gt key_behind,
      Json.put_cons_of_gt key_last, Json.put_cons_of_lt hash_first]
  rw [fields]
  simp [Json.chars, Json.fieldChars, Json.quote, Json.escapeChar, escaped,
    cipher, hash, format, Json.decimal, Nat.toDigits_of_lt_base, Nat.digitChar]

/-- The object of a key always has the same length. -/
lemma length_toBytes_toJson {key : SymmetricKey} (length : key.bytes.length = SymmetricKey.size) :
    (toJson key).toBytes.length = objectSize := by
  have ascii {l : List Char} (h : l.all (·.utf8Size == 1) = true) : ∀ c ∈ l, c.utf8Size = 1 :=
    fun c hc => eq_of_beq (List.all_eq_true.mp h c hc)
  have digits : ('=' :: Base64.digits).all (·.utf8Size == 1) = true := by decide +kernel
  rw [Json.toBytes, Json.render, chars_toJson, Bytes.length_ofString]
  · rw [List.length_append, List.length_append, SymmetricKey.toBase64, Base64.length_encode, length]
    decide +kernel
  · simp only [List.forall_mem_append]
    refine ⟨ascii (by decide +kernel), ?_, ascii (by decide +kernel)⟩
    exact fun c hc => ascii digits c (Base64.mem_encode hc)

/-- Whoever has a key for encryption with room for the object can be sent a key. -/
lemma exists_generate (keyId : UInt32) {recipient : PublicKey}
    (purpose : recipient.purpose = .encryption)
    (large : objectSize + 2 * Sha512.size + 2 ≤ recipient.numbers.size) (entropy : Entropy) :
    ∃ safe key entropy', generate keyId recipient entropy = .ok ((safe, key), entropy') ∧
      key.bytes.length = SymmetricKey.size ∧ safe.length = 4 + recipient.numbers.size := by
  obtain ⟨key, e₁, generated, length⟩ : ∃ key e₁,
      SymmetricKey.generate (8 * SymmetricKey.size) entropy = .ok (key, e₁) ∧
        key.bytes.length = SymmetricKey.size :=
    ⟨_, _, rfl, Entropy.length_draw _ _⟩
  obtain ⟨seed, e₂, drawn⟩ : ∃ seed e₂,
      (Random.bytes Sha512.size : Random CipherError Bytes) e₁ = .ok (seed, e₂) := ⟨_, _, rfl⟩
  have fits : (toJson key).toBytes.length + 2 * Sha512.size + 2 ≤ recipient.numbers.size := by
    rw [length_toBytes_toJson length]
    exact large
  obtain ⟨ciphertext, encrypted⟩ : ∃ ciphertext,
      Rsa.Oaep.encrypt? recipient.numbers seed (toJson key).toBytes = some ciphertext :=
    ⟨_, Rsa.Oaep.encrypt?_eq fits seed⟩
  have sealed : encrypt keyId recipient seed key = .ok (Bytes.ofUInt32 keyId ++ ciphertext) := by
    rw [encrypt, bind_eq_ok]
    exact ⟨ciphertext, PublicKey.encrypt_eq_ok.mpr ⟨purpose, encrypted⟩, rfl⟩
  refine ⟨Bytes.ofUInt32 keyId ++ ciphertext, key, e₂, ?_, length, ?_⟩
  · exact Random.bind_eq_ok.mpr ⟨key, e₁, generated, Random.bind_eq_ok.mpr ⟨seed, e₂, drawn,
      Random.bind_eq_ok.mpr ⟨_, e₂, Random.ofExcept_eq_ok.mpr ⟨sealed, rfl⟩, rfl⟩⟩⟩
  · rw [List.length_append, Bytes.length_ofUInt32, (Rsa.Oaep.of_encrypt? encrypted).2]

/-! ## Key safes that were made -/

/-- What a new key safe was made of. -/
lemma of_generate {keyId : UInt32} {recipient : PublicKey} {entropy entropy' : Entropy}
    {safe : Bytes} {key : SymmetricKey}
    (h : generate keyId recipient entropy = .ok ((safe, key), entropy')) :
    key.bytes.length = SymmetricKey.size ∧ ∃ seed ciphertext, seed.length = Sha512.size ∧
      recipient.encrypt seed (toJson key).toBytes = .ok ciphertext ∧
      safe = Bytes.ofUInt32 keyId ++ ciphertext := by
  obtain ⟨key', e₁, generated, h⟩ := Random.bind_eq_ok.mp h
  obtain ⟨bytes, e₂, drawn, made⟩ := Random.bind_eq_ok.mp generated
  obtain ⟨seed, e₃, seeded, h⟩ := Random.bind_eq_ok.mp h
  obtain ⟨safe', e₄, encrypted, h⟩ := Random.bind_eq_ok.mp h
  cases made
  cases h
  obtain ⟨ciphertext, encrypted, h⟩ := bind_eq_ok.mp (Random.ofExcept_eq_ok.mp encrypted).1
  rw [pure_eq_ok] at h
  exact ⟨Random.length_of_bytes drawn, seed, ciphertext, Random.length_of_bytes seeded, encrypted, h⟩

/-- A key pair that the ring gives opens what is behind its number. -/
lemma decrypt_of_given {keys : KeyRing σ} {s s' : σ} {keyId : UInt32} {privateKey : PrivateKey}
    {ciphertext : Bytes} (nonempty : ciphertext ≠ [])
    (given : keys .encryption keyId s = (.ok privateKey, s')) :
    decrypt keys (Bytes.ofUInt32 keyId ++ ciphertext) s =
      (ofCiphertext privateKey ciphertext, s') := by
  cases ciphertext with
  | nil => exact absurd rfl nonempty
  | cons x rest =>
    rw [decrypt, Bytes.readUInt32?_append]
    exact MailM.bind_ok (MailM.liftM_ok given)

/-- The key in a new key safe is found with the private half of the key pair. -/
theorem decrypt_of_generate {keyId : UInt32} {privateKey : PrivateKey}
    (pair : privateKey.numbers.IsPrimePair) {entropy entropy' : Entropy} {safe : Bytes}
    {key : SymmetricKey}
    (h : generate keyId privateKey.toPublic entropy = .ok ((safe, key), entropy'))
    {keys : KeyRing σ} {s s' : σ} (given : keys .encryption keyId s = (.ok privateKey, s')) :
    decrypt keys safe s = (.ok key, s') := by
  obtain ⟨length, seed, ciphertext, length_seed, encrypted, rfl⟩ := of_generate h
  obtain ⟨found, nonempty⟩ := ofCiphertext_of_encrypt pair length length_seed encrypted
  rw [decrypt_of_given nonempty given, found]

end SealedMail.KeySafe
