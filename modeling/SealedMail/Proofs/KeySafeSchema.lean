import SealedMail.Attachment.Concat
import SealedMail.Proofs.Authentication
import SealedMail.Proofs.EndToEnd
import SealedMail.Proofs.KeySafe
import SealedMail.Proofs.Schema
import SealedMail.Proofs.SignedContent

/-!
# What a key safe must be

The schema of the object in a key safe (`KeySafe.Describes`), and of its encryption
(`KeySafe.Holds`). The number in front decides which key pair is asked for, and nothing is done
before that (`KeySafe.decrypt_cases`). So a key is found exactly if the key pair is there and opens
the rest to an object that describes the key, which then is of the right length for everything that
is encrypted with it (`KeySafe.found_iff_described`).
-/

namespace SealedMail

open SealedMail.Field

variable {σ : Type}

namespace KeySafe

/-! ## The object -/

/-- The value is an object that describes the key. It may have other fields. -/
structure Describes (json : Json) (key : SymmetricKey) : Prop where
  object : json.isObject = true
  format : json.field "msgFormat" = .integer 1
  cipher : json.field "symmCipher" = .string "AES-256/GCM"
  hash : json.field "hashAlgo" = .string "SHA-512"
  bytes : json.field "symmKey" = .string (Base64.encode key.bytes)
  size : key.bytes.length = 32

/-- The value is an object in another format, whatever else stands in it. -/
structure IsOfFormat (json : Json) (version : UInt32) : Prop where
  object : json.isObject = true
  format : json.field "msgFormat" = .integer version.toNat
  other : version ≠ 1

section Object

variable {json : Json} {key : SymmetricKey} {version : UInt32}

/-- An object that describes a key holds its bytes in base 64. -/
lemma Describes.isBase64 (described : Describes json key) :
    IsBase64 (json.field "symmKey") key.bytes := by
  refine ⟨described.bytes, List.ne_nil_of_length_pos ?_⟩
  rw [described.size]
  decide

/-- A check lets the computation go on, or refuses. -/
lemma check_eq_ok {c : Prop} [Decidable c] {e : MailError} {rest : Unit → Except MailError α}
    {a : α} :
    (if c then (.error e : Except MailError Unit) >>= rest else rest ()) = .ok a ↔
      ¬ c ∧ rest () = .ok a := by
  by_cases refused : c
  · rw [if_pos refused]
    exact ⟨nofun, fun h => absurd refused h.1⟩
  · rw [if_neg refused]
    exact ⟨fun h => ⟨refused, h⟩, fun h => h.2⟩

/-- A key is read from a value exactly if this describes it. -/
lemma ofJson_eq_ok : ofJson json = .ok key ↔ Describes json key := by
  simp only [ofJson, fault, throw, throwThe, MonadExceptOf.throw, check_eq_ok, bind_eq_ok,
    named_eq_ok, unsigned_eq_ok, string_false_eq_ok, base64_false_eq_ok, pure_eq_ok,
    Decidable.not_not, Bool.not_eq_true', Bool.not_eq_false]
  refine ⟨?_, fun described => ?_⟩
  · rintro ⟨object, _, version, rfl, _, named, rfl, _, hashed, rfl, bytes, given, size, rfl⟩
    exact ⟨object, version, named.1, hashed.1, given.1, size⟩
  · exact ⟨described.object, 1, described.format, rfl, _, ⟨described.cipher, by decide⟩, rfl,
      _, ⟨described.hash, by decide⟩, rfl, _, described.isBase64, described.size, rfl⟩

/-- An object in another format is told apart before anything else is read from it. -/
lemma ofJson_of_isOfFormat (h : IsOfFormat json version) :
    ofJson json = .error (.unsupportedVersion version) := by
  have object : ¬ (!json.isObject) = true := by
    rw [h.object]
    decide
  have read : Field.named "keySafe msgFormat" (unsigned (json.field "msgFormat")) = .ok version :=
    named_eq_ok.mpr (unsigned_eq_ok.mpr h.format)
  rw [ofJson, if_neg object, read]
  exact if_pos h.other

/-- How a value is refused: as invalid, unless it is an object in another format. -/
def Refuses (json : Json) (e : MailError) : Prop :=
  e.IsFault ∨ ∃ version, IsOfFormat json version ∧ e = .unsupportedVersion version

/-- A value may be refused as invalid. -/
lemma Refuses.invalid (fault : Fault) : Refuses json (.invalid fault) := .inl ⟨fault, rfl⟩

/-- A value that describes no key is refused as invalid or for its format. -/
lemma fails_ofJson (json : Json) : FailsWith (Refuses json) (ofJson json) := by
  have named {α : Type} (name : String) (x : Except FieldError α) :
      FailsWith (Refuses json) (Field.named name x) :=
    FailsWith.mono (FailsWith.named name x) fun _ => .inl
  rw [ofJson]
  refine FailsWith.check (fun _ => .invalid _) fun object => ?_
  refine FailsWith.bind_of (named _ _) fun version read => ?_
  refine FailsWith.check (fun other => ?_) fun _ => ?_
  · have format := unsigned_eq_ok.mp (named_eq_ok.mp read)
    exact .inr ⟨version, ⟨by simpa using object, format, other⟩, rfl⟩
  refine FailsWith.bind (named _ _) fun cipher => ?_
  refine FailsWith.check (fun _ => .invalid _) fun _ => ?_
  refine FailsWith.bind (named _ _) fun hash => ?_
  refine FailsWith.check (fun _ => .invalid _) fun _ => ?_
  refine FailsWith.bind (named _ _) fun bytes => ?_
  exact FailsWith.check (fun _ => .invalid _) fun _ => .ok _

end Object

/-! ## The ciphertext -/

/-- The ciphertext is decrypted with the private key to the text of the value. -/
structure Holds (privateKey : PrivateKey) (ciphertext : Bytes) (json : Json) : Prop where
  purpose : privateKey.purpose = .encryption
  plain : ∃ plain, Rsa.Oaep.decrypt? privateKey.numbers ciphertext = some plain ∧
    Json.ofBytes? plain = some json

section Ciphertext

variable {privateKey : PrivateKey} {ciphertext : Bytes} {json : Json}

/-- A ciphertext gives the key of the value that it holds. -/
lemma ofCiphertext_of_holds (holds : Holds privateKey ciphertext json) :
    ofCiphertext privateKey ciphertext = ofJson json := by
  obtain ⟨purpose, plain, decrypted, read⟩ := holds
  rw [ofCiphertext, PrivateKey.decrypt_eq_ok.mpr ⟨purpose, decrypted⟩]
  simp only [read]

/-- A value that was encrypted is what the ciphertext holds. -/
lemma Holds.of_encrypt (purpose : privateKey.purpose = .encryption)
    (pair : privateKey.numbers.IsPrimePair) (fits : Json.Fits Json.maxDepth json) {seed : Bytes}
    (length : seed.length = Sha512.size)
    (encrypted : Rsa.Oaep.encrypt? privateKey.numbers.toPublic seed json.toBytes = some ciphertext) :
    Holds privateKey ciphertext json :=
  ⟨purpose, json.toBytes, Rsa.Oaep.decrypt?_of_encrypt? pair length encrypted,
    fits.ofBytes?_toBytes⟩

/-- A ciphertext that does not hold anything is refused as invalid. -/
lemma ofCiphertext_cases (privateKey : PrivateKey) (ciphertext : Bytes) :
    (∃ fault, ofCiphertext privateKey ciphertext = .error (.invalid fault)) ∨
      ∃ json, Holds privateKey ciphertext json := by
  rw [ofCiphertext]
  cases decrypted : privateKey.decrypt ciphertext with
  | error cause => exact .inl ⟨_, rfl⟩
  | ok plain =>
    obtain ⟨purpose, opened⟩ := PrivateKey.decrypt_eq_ok.mp decrypted
    cases read : Json.ofBytes? plain with
    | none => exact .inl ⟨.keySafe .notJson, by simp only [read]; rfl⟩
    | some json => exact .inr ⟨json, purpose, plain, opened, read⟩

end Ciphertext

/-! ## The key safe -/

/-- The key safe names a key pair that the ring has, and is decrypted with it to the value. The ring
is then in the state `s'`. -/
def OpensTo (keys : KeyRing σ) (b : Bytes) (s : σ) (json : Json) (s' : σ) : Prop :=
  ∃ keyId ciphertext privateKey, b = Bytes.ofUInt32 keyId ++ ciphertext ∧ ciphertext ≠ [] ∧
    keys .encryption keyId s = (.ok privateKey, s') ∧ Holds privateKey ciphertext json

/-- The key safe names a key pair that the ring does not have. -/
def Misses (keys : KeyRing σ) (b : Bytes) (s : σ) (keyId : UInt32) (cause : LookupError) (s' : σ) :
    Prop :=
  ∃ ciphertext, b = Bytes.ofUInt32 keyId ++ ciphertext ∧ ciphertext ≠ [] ∧
    keys .encryption keyId s = (.error cause, s')

section Safe

variable {keys : KeyRing σ} {b : Bytes} {s s' : σ} {json : Json}

/-- A key safe gives the key of the value that it opens to. -/
lemma decrypt_of_opensTo (opens : OpensTo keys b s json s') :
    decrypt keys b s = (ofJson json, s') := by
  obtain ⟨keyId, ciphertext, privateKey, rfl, nonempty, given, holds⟩ := opens
  rw [decrypt_of_given nonempty given, ofCiphertext_of_holds holds]

/-- A key safe whose key pair is missing is refused for this. -/
lemma decrypt_of_misses {keyId : UInt32} {cause : LookupError}
    (misses : Misses keys b s keyId cause s') :
    decrypt keys b s = (.error (.decryptionKeyMissing keyId cause), s') := by
  obtain ⟨ciphertext, rfl, nonempty, missing⟩ := misses
  cases ciphertext with
  | nil => exact absurd rfl nonempty
  | cons x rest =>
    rw [decrypt, Bytes.readUInt32?_append]
    exact MailM.bind_ok (MailM.liftM_ok missing)

/-- Each key safe is invalid on its own, or misses a key pair, or is opened. -/
lemma decrypt_cases (keys : KeyRing σ) (b : Bytes) (s : σ) :
    (∃ fault s', decrypt keys b s = (.error (.invalid fault), s')) ∨
    (∃ keyId cause s', Misses keys b s keyId cause s') ∨ ∃ json s', OpensTo keys b s json s' := by
  cases parts : Bytes.readUInt32? b with
  | none =>
    refine .inl ⟨.keySafe .tooShort, s, ?_⟩
    rw [decrypt, parts]
    rfl
  | some parts' =>
    obtain ⟨keyId, ciphertext⟩ := parts'
    cases ciphertext with
    | nil =>
      refine .inl ⟨.keySafe .tooShort, s, ?_⟩
      rw [decrypt, parts]
      rfl
    | cons x rest =>
      obtain rfl := Bytes.readUInt32?_eq_some.mp parts
      have nonempty := List.cons_ne_nil x rest
      cases given : keys .encryption keyId s with
      | mk result s' =>
        cases result with
        | error cause => exact .inr (.inl ⟨keyId, cause, s', _, rfl, nonempty, given⟩)
        | ok privateKey =>
          obtain ⟨fault, refused⟩ | ⟨json, holds⟩ := ofCiphertext_cases privateKey (x :: rest)
          · refine .inl ⟨fault, s', ?_⟩
            rw [decrypt_of_given nonempty given, refused]
          · exact .inr (.inr ⟨json, s', keyId, _, privateKey, rfl, nonempty, given, holds⟩)

/-- A key safe gives a key exactly if it opens to a value that describes this key. -/
lemma decrypt_eq_ok {key : SymmetricKey} :
    decrypt keys b s = (.ok key, s') ↔ ∃ json, OpensTo keys b s json s' ∧ Describes json key := by
  refine ⟨fun h => ?_, ?_⟩
  · obtain ⟨fault, _, run⟩ | ⟨_, _, _, misses⟩ | ⟨json, s'', opens⟩ := decrypt_cases keys b s
    · cases run.symm.trans h
    · cases (decrypt_of_misses misses).symm.trans h
    · obtain ⟨found, rfl⟩ := Prod.mk.inj ((decrypt_of_opensTo opens).symm.trans h)
      exact ⟨json, opens, ofJson_eq_ok.mp found⟩
  · rintro ⟨json, opens, described⟩
    rw [decrypt_of_opensTo opens, ofJson_eq_ok.mpr described]

/-- Which error a key safe is refused with. -/
lemma decrypt_eq_error {e : MailError} (h : decrypt keys b s = (.error e, s')) :
    e.IsFault ∨ (∃ keyId cause, Misses keys b s keyId cause s' ∧
      e = .decryptionKeyMissing keyId cause) ∨
      ∃ json version, OpensTo keys b s json s' ∧ IsOfFormat json version ∧
        e = .unsupportedVersion version := by
  obtain ⟨fault, _, run⟩ | ⟨keyId, cause, s'', misses⟩ | ⟨json, s'', opens⟩ :=
    decrypt_cases keys b s
  · cases run.symm.trans h
    exact .inl ⟨fault, rfl⟩
  · cases (decrypt_of_misses misses).symm.trans h
    exact .inr (.inl ⟨keyId, cause, misses, rfl⟩)
  · obtain ⟨failed, rfl⟩ := Prod.mk.inj ((decrypt_of_opensTo opens).symm.trans h)
    obtain fault | ⟨version, other, rfl⟩ := fails_ofJson json e failed
    · exact .inl fault
    · exact .inr (.inr ⟨json, version, opens, other, rfl⟩)

end Safe

/-! ## Keys that were found -/

section Key

variable {key : SymmetricKey} {ciphertext : Bytes}

/-- A key of the right length decrypts exactly what carries its tag. -/
lemma exists_decrypt_iff_tagged {iv : Bytes} (whole : key.bytes.length = SymmetricKey.size)
    (supported : iv.length ∈ [4, 7, 11, 12, 16]) (nonempty : ciphertext ≠ []) :
    (∃ text, key.decrypt iv ciphertext = .ok text) ↔ Gcm.IsTagged key.bytes iv ciphertext := by
  rw [SymmetricKey.exists_decrypt nonempty]
  exact ⟨fun h => h.2.2, fun tagged => ⟨whole, supported, tagged⟩⟩

/-- What is wrong with a frame is not its ciphertext. -/
lemma ofBytes_ne_undecryptable (frame : Bytes) (cause : CipherError) :
    SignedContent.ofBytes frame ≠ .error (.undecryptable cause) := by
  rw [SignedContent.ofBytes]
  intro failed
  cases first : Bytes.readUInt32? frame with
  | none =>
    rw [first] at failed
    cases failed
  | some parts =>
    cases second : Bytes.readUInt32? parts.2 with
    | none => simp [first, second] at failed
    | some parts =>
      simp only [first, second] at failed
      split at failed
      next => cases failed
      next => cases failed

/-- Content cannot be decrypted exactly if it does not carry the tag of its key. -/
lemma content_undecryptable_iff (whole : key.bytes.length = SymmetricKey.size)
    (nonempty : ciphertext ≠ []) :
    (∃ cause, SignedContent.decrypt key ciphertext =
      .error (.invalid (.content (.undecryptable cause)))) ↔
      ¬ Gcm.IsTagged key.bytes SymmetricKey.contentIv ciphertext := by
  rw [← exists_decrypt_iff_tagged whole (by decide) nonempty, SignedContent.decrypt]
  cases key.decrypt SymmetricKey.contentIv ciphertext with
  | error cause => simp
  | ok plain =>
    cases parts : SignedContent.ofBytes plain with
    | error fault =>
      have other (cause : CipherError) : fault ≠ .undecryptable cause := by
        rintro rfl
        exact ofBytes_ne_undecryptable plain cause parts
      simp [parts, other]
    | ok content => simp [parts]

/-- Attachments can be decrypted exactly if they carry the tag of their key. -/
lemma exists_attachments_decrypt (whole : key.bytes.length = SymmetricKey.size)
    (nonempty : ciphertext ≠ []) :
    (∃ stream, Attachments.decrypt key ciphertext = .ok stream) ↔
      Gcm.IsTagged key.bytes SymmetricKey.attachmentsIv ciphertext := by
  rw [← exists_decrypt_iff_tagged whole (by decide) nonempty, Attachments.decrypt]
  cases key.decrypt SymmetricKey.attachmentsIv ciphertext with
  | error cause => simp
  | ok stream => simp

end Key

/-- A key is found exactly if the ring has the key pair for encryption that the first four bytes
number, and the key pair decrypts the rest, which is not empty, to an object that describes the key.
An object in another format is refused for its format, whatever else stands in it, and a key pair
that the ring does not have is named in the error; everything else is refused as invalid. The key
that is found is never refused for its length: content and attachments are decrypted with it exactly
if they end with their tag. And the key in a new key safe is found in it again. -/
theorem found_iff_described (keys : KeyRing σ) :
    (∀ b key s s', decrypt keys b s = (.ok key, s') ↔
      ∃ json, OpensTo keys b s json s' ∧ Describes json key) ∧
    (∀ b version s s', decrypt keys b s = (.error (.unsupportedVersion version), s') ↔
      ∃ json, OpensTo keys b s json s' ∧ IsOfFormat json version) ∧
    (∀ b keyId cause s s', decrypt keys b s = (.error (.decryptionKeyMissing keyId cause), s') ↔
      Misses keys b s keyId cause s') ∧
    (∀ b e s s', decrypt keys b s = (.error e, s') → (∃ fault, e = .invalid fault) ∨
      (∃ version, e = .unsupportedVersion version) ∨
      ∃ keyId cause, e = .decryptionKeyMissing keyId cause) ∧
    (∀ b key s s', decrypt keys b s = (.ok key, s') → key.bytes.length = 32 ∧
      ∀ ciphertext : Bytes, ciphertext ≠ [] →
        ((∃ cause, SignedContent.decrypt key ciphertext =
          .error (.invalid (.content (.undecryptable cause)))) ↔
            ¬ Gcm.IsTagged key.bytes SymmetricKey.contentIv ciphertext) ∧
        ((∃ stream, Attachments.decrypt key ciphertext = .ok stream) ↔
          Gcm.IsTagged key.bytes SymmetricKey.attachmentsIv ciphertext)) ∧
    ∀ keyId (privateKey : PrivateKey) entropy safe key entropy',
      privateKey.numbers.IsPrimePair →
      generate keyId privateKey.toPublic entropy = .ok ((safe, key), entropy') →
      ∀ s s', keys .encryption keyId s = (.ok privateKey, s') →
        decrypt keys safe s = (.ok key, s') := by
  refine ⟨fun b key s s' => decrypt_eq_ok, ?_, ?_, ?_, ?_, ?_⟩
  · refine fun b version s s' => ⟨fun h => ?_, ?_⟩
    · obtain ⟨_, ⟨⟩⟩ | ⟨_, _, _, ⟨⟩⟩ | ⟨json, _, opens, other, ⟨⟩⟩ := decrypt_eq_error h
      exact ⟨json, opens, other⟩
    · rintro ⟨json, opens, other⟩
      rw [decrypt_of_opensTo opens, ofJson_of_isOfFormat other]
  · refine fun b keyId cause s s' => ⟨fun h => ?_, decrypt_of_misses⟩
    obtain ⟨_, ⟨⟩⟩ | ⟨_, _, misses, ⟨⟩⟩ | ⟨_, _, _, _, ⟨⟩⟩ := decrypt_eq_error h
    exact misses
  · intro b e s s' h
    obtain fault | ⟨keyId, cause, _, rfl⟩ | ⟨_, version, _, _, rfl⟩ := decrypt_eq_error h
    · exact .inl fault
    · exact .inr (.inr ⟨keyId, cause, rfl⟩)
    · exact .inr (.inl ⟨version, rfl⟩)
  · intro b key s s' h
    obtain ⟨_, _, described⟩ := decrypt_eq_ok.mp h
    refine ⟨described.size, fun ciphertext nonempty => ⟨?_, ?_⟩⟩
    · exact content_undecryptable_iff described.size nonempty
    · exact exists_attachments_decrypt described.size nonempty
  · exact fun _ _ _ _ _ _ pair generated _ _ given => decrypt_of_generate pair generated given

/-- A new key safe, one that numbers a key pair that is not there, and one of an object that says
only that it is in the second format. -/
theorem found_iff_described_new_safe :
    let recipient : PrivateKey := ⟨.encryption, .mersenne⟩
    let keys : KeyRing Unit := KeyRing.ofList (fun _ _ => true) [(3, recipient)]
    (∃ safe key json, decrypt keys safe () = (.ok key, ()) ∧ OpensTo keys safe () json () ∧
      Describes json key ∧ ¬ ∃ stream, Attachments.decrypt key [1, 2, 3] = .ok stream) ∧
    (∃ cause, decrypt keys (Bytes.ofUInt32 4 ++ [0]) () =
      (.error (.decryptionKeyMissing 4 cause), ())) ∧
    ∃ later, decrypt keys later () = (.error (.unsupportedVersion 2), ()) := by
  have pair := Rsa.PrivateNumbers.isPrimePair_mersenne
  have room : objectSize + 2 * Sha512.size + 2 ≤ Rsa.PrivateNumbers.mersenne.toPublic.size := by
    decide +kernel
  -- nothing else about the numbers matters, and nothing below may compute with them
  generalize Rsa.PrivateNumbers.mersenne = numbers at pair room ⊢
  intro recipient keys
  obtain ⟨found, other, missing, _, usable, again⟩ := found_iff_described keys
  refine ⟨?_, ?_, ?_⟩
  · obtain ⟨safe, key, entropy', generated, _, _⟩ :=
      exists_generate 3 (show recipient.toPublic.purpose = .encryption from rfl) room (.ofSeed 0)
    have taken := again 3 recipient _ _ _ _ pair generated () () rfl
    obtain ⟨json, opens, described⟩ := (found _ _ _ _).mp taken
    refine ⟨safe, key, json, taken, opens, described, fun decrypted => ?_⟩
    have tagged := (((usable _ _ _ _ taken).2 _ (List.cons_ne_nil _ _)).2).mp decrypted
    exact absurd tagged.1 (by decide)
  · exact ⟨_, (missing _ _ _ _ _).mpr ⟨[0], rfl, List.cons_ne_nil _ _, rfl⟩⟩
  · let json : Json := .object [("msgFormat", .integer 2)]
    have fits : Json.Fits Json.maxDepth json := by
      refine .object (List.pairwise_singleton _ _) ?_
      simp only [List.forall_mem_singleton]
      exact .integer (by decide) (by decide)
    have small : json.toBytes.length + 2 * Sha512.size + 2 ≤ numbers.toPublic.size := by
      have length : json.toBytes.length ≤ objectSize := by decide +kernel
      omega
    obtain ⟨ciphertext, encrypted⟩ : ∃ ciphertext,
        Rsa.Oaep.encrypt? numbers.toPublic (List.replicate Sha512.size 0) json.toBytes =
          some ciphertext := ⟨_, Rsa.Oaep.encrypt?_eq small _⟩
    have holds : Holds recipient ciphertext json :=
      .of_encrypt rfl pair fits List.length_replicate encrypted
    have nonempty : ciphertext ≠ [] := by
      apply List.ne_nil_of_length_pos
      rw [(Rsa.Oaep.of_encrypt? encrypted).2]
      omega
    have opens : OpensTo keys (Bytes.ofUInt32 3 ++ ciphertext) () json () :=
      ⟨3, ciphertext, recipient, rfl, nonempty, rfl, holds⟩
    exact ⟨_, (other _ _ _ _).mpr ⟨json, opens, rfl, rfl, by decide⟩⟩

end KeySafe

end SealedMail
