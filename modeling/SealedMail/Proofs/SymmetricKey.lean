import Mathlib.Logic.ExistsUnique
import SealedMail.Proofs.Results
import SealedMail.SymmetricKey

/-!
# Decrypting what was encrypted

Whatever a symmetric key encrypted, it decrypts, with the vector given (`decrypt_of_encrypt`) or in
front (`decryptPrepended_of_encryptPrepended`). Only the empty text has the empty ciphertext. Any
other text is decrypted from what it encrypts to and from nothing else (`encrypt_of_decrypt`,
`encryptPrepended_of_decryptPrepended`), so encrypting and decrypting are inverses
(`encrypt_decrypt_inverse`).
-/

namespace SealedMail

namespace Gcm

variable {key iv sealed text : Bytes}

/-- A ciphertext is longer than its text by a tag. -/
lemma length_encrypt (key iv text : Bytes) :
    (encrypt key iv text).length = text.length + tagSize := by
  rw [encrypt, List.length_append, length_combine, length_tag]

/-- Nothing is decrypted but what the text encrypts to. -/
lemma decrypt?_eq_some : decrypt? key iv sealed = some text ↔ sealed = encrypt key iv text := by
  refine ⟨fun h => ?_, ?_⟩
  · rw [decrypt?] at h
    split at h
    next => cases h
    next =>
      dsimp only at h
      split at h
      next tagged =>
        obtain rfl := Option.some.inj h
        rw [encrypt, combine_combine, ← tagged, List.take_append_drop]
      next => cases h
  · rintro rfl
    exact decrypt?_encrypt key iv text

end Gcm

namespace SymmetricKey

variable {key : SymmetricKey} {iv text ciphertext sealed : Bytes}

/-- Initial values have one of five lengths. -/
lemma isIvLength_iff {n : Nat} : isIvLength n = true ↔ n ∈ [4, 7, 11, 12, 16] := by
  simp [isIvLength]

/-- A random initial value has a length that is allowed. -/
lemma isIvLength_draw (entropy : Entropy) :
    isIvLength (entropy.draw randomIvSize).1.length = true := by
  rw [Entropy.length_draw]
  decide

/-! ## Ciphertexts -/

/-- A key of the right length encrypts any text with a vector of a supported length. -/
lemma encrypt_eq_ok (nonempty : text ≠ []) :
    key.encrypt iv text = .ok ciphertext ↔
      isIvLength iv.length = true ∧ key.bytes.length = size ∧
        ciphertext = Gcm.encrypt key.bytes iv text := by
  rw [encrypt, if_neg (nonempty ∘ List.isEmpty_iff.mp)]
  cases length : isIvLength iv.length with
  | false => exact ⟨nofun, nofun⟩
  | true =>
    rw [Bool.not_true, if_neg Bool.false_ne_true]
    by_cases whole : key.bytes.length = size
    · rw [if_neg (not_not_intro whole), Except.ok.injEq]
      exact ⟨fun same => ⟨rfl, whole, same.symm⟩, fun h => h.2.2.symm⟩
    · rw [if_pos whole]
      exact ⟨nofun, fun h => absurd h.2.1 whole⟩

/-- A key of the right length encrypts every text, under an initial value of an allowed length. -/
lemma encrypt_eq (nonempty : text ≠ []) (length : isIvLength iv.length = true)
    (whole : key.bytes.length = size) :
    key.encrypt iv text = .ok (Gcm.encrypt key.bytes iv text) :=
  (encrypt_eq_ok nonempty).mpr ⟨length, whole, rfl⟩

/-- A text grows by no more than a tag. -/
lemma exists_encrypt (length : isIvLength iv.length = true) (whole : key.bytes.length = size)
    (text : Bytes) :
    ∃ ciphertext, key.encrypt iv text = .ok ciphertext ∧
      ciphertext.length ≤ text.length + Gcm.tagSize := by
  cases text with
  | nil => exact ⟨[], rfl, Nat.zero_le _⟩
  | cons x rest =>
    refine ⟨_, encrypt_eq (List.cons_ne_nil x rest) length whole, Nat.le_of_eq ?_⟩
    exact Gcm.length_encrypt _ _ _

/-- No ciphertext is empty. -/
lemma gcmEncrypt_ne_nil : Gcm.encrypt key.bytes iv text ≠ [] := by
  apply List.ne_nil_of_length_pos
  rw [Gcm.length_encrypt]
  exact Nat.add_pos_right _ (by decide)

/-- Only the empty text has an empty ciphertext. -/
lemma eq_nil_of_encrypt (h : key.encrypt iv text = .ok ciphertext) :
    ciphertext = [] ↔ text = [] := by
  refine ⟨?_, ?_⟩
  · rintro rfl
    apply Classical.byContradiction
    intro nonempty
    exact gcmEncrypt_ne_nil ((encrypt_eq_ok nonempty).mp h).2.2.symm
  · rintro rfl
    cases h
    rfl

/-- It decrypts to a text what the cipher makes of the text, and nothing else. -/
lemma decrypt_eq_ok (nonempty : ciphertext ≠ []) :
    key.decrypt iv ciphertext = .ok text ↔
      isIvLength iv.length = true ∧ key.bytes.length = size ∧
        ciphertext = Gcm.encrypt key.bytes iv text := by
  rw [decrypt, if_neg (nonempty ∘ List.isEmpty_iff.mp)]
  cases length : isIvLength iv.length with
  | false => exact ⟨nofun, nofun⟩
  | true =>
    rw [Bool.not_true, if_neg Bool.false_ne_true]
    by_cases whole : key.bytes.length = size
    · rw [if_neg (not_not_intro whole), ← Gcm.decrypt?_eq_some]
      cases Gcm.decrypt? key.bytes iv ciphertext with
      | none => exact ⟨nofun, nofun⟩
      | some text' =>
        rw [Except.ok.injEq, Option.some.injEq]
        exact ⟨fun same => ⟨rfl, whole, same⟩, fun h => h.2.2⟩
    · rw [if_pos whole]
      exact ⟨nofun, fun h => absurd h.2.1 whole⟩

/-- Decrypting undoes encrypting. -/
theorem decrypt_of_encrypt (h : key.encrypt iv text = .ok ciphertext) :
    key.decrypt iv ciphertext = .ok text := by
  by_cases empty : text = []
  · obtain rfl := (eq_nil_of_encrypt h).mpr empty
    rw [empty]
    rfl
  · have some : ciphertext ≠ [] := empty ∘ (eq_nil_of_encrypt h).mp
    exact (decrypt_eq_ok some).mpr ((encrypt_eq_ok empty).mp h)

/-- Encrypting undoes decrypting to a text that is not empty. -/
theorem encrypt_of_decrypt (nonempty : text ≠ []) (h : key.decrypt iv ciphertext = .ok text) :
    key.encrypt iv text = .ok ciphertext := by
  have some : ciphertext ≠ [] := by
    rintro rfl
    cases h
    exact nonempty rfl
  exact (encrypt_eq_ok nonempty).mpr ((decrypt_eq_ok some).mp h)

/-! ## Ciphertexts behind a vector -/

/-- The initial value stands in front of the ciphertext. -/
lemma encryptPrepended_eq_ok (nonempty : text ≠ []) :
    key.encryptPrepended iv text = .ok sealed ↔
      ∃ ciphertext, key.encrypt iv text = .ok ciphertext ∧ sealed = iv ++ ciphertext := by
  rw [encryptPrepended, bind_eq_ok]
  refine exists_congr fun ciphertext => and_congr_right fun _ => ?_
  rw [pure_eq_ok, if_neg (nonempty ∘ List.isEmpty_iff.mp)]

/-- A key of the right length encrypts any text behind a vector. -/
lemma exists_encryptPrepended (length : isIvLength iv.length = true)
    (whole : key.bytes.length = size) (text : Bytes) :
    ∃ sealed, key.encryptPrepended iv text = .ok sealed ∧
      sealed.length = if text = [] then 0 else iv.length + (text.length + Gcm.tagSize) := by
  by_cases empty : text = []
  · subst empty
    exact ⟨[], rfl, rfl⟩
  · refine ⟨_, (encryptPrepended_eq_ok empty).mpr ⟨_, encrypt_eq empty length whole, rfl⟩, ?_⟩
    rw [List.length_append, Gcm.length_encrypt, if_neg empty]

/-- The initial value is taken from the front, and the rest is decrypted. -/
lemma decryptPrepended_eq_ok {n : Nat} (nonempty : sealed ≠ []) :
    key.decryptPrepended n sealed = .ok text ↔
      n ≤ sealed.length ∧ key.decrypt (sealed.take n) (sealed.drop n) = .ok text := by
  rw [decryptPrepended, if_neg (nonempty ∘ List.isEmpty_iff.mp)]
  split
  next short => exact ⟨nofun, fun h => absurd h.1 (Nat.not_le_of_lt short)⟩
  next long => exact ⟨fun h => ⟨Nat.le_of_not_lt long, h⟩, fun h => h.2⟩

/-- Decrypting behind a vector undoes encrypting behind it. -/
theorem decryptPrepended_of_encryptPrepended (h : key.encryptPrepended iv text = .ok sealed) :
    key.decryptPrepended iv.length sealed = .ok text := by
  by_cases empty : text = []
  · subst empty
    cases h
    rfl
  · obtain ⟨ciphertext, encrypted, rfl⟩ := (encryptPrepended_eq_ok empty).mp h
    have nonempty : iv ++ ciphertext ≠ [] := by
      intro nothing
      exact empty ((eq_nil_of_encrypt encrypted).mp (List.append_eq_nil_iff.mp nothing).2)
    rw [decryptPrepended_eq_ok nonempty, List.take_left, List.drop_left, List.length_append]
    exact ⟨Nat.le_add_right _ _, decrypt_of_encrypt encrypted⟩

/-- Encrypting undoes decrypting to a text that is not empty, behind the vector that was found. -/
theorem encryptPrepended_of_decryptPrepended {n : Nat} (nonempty : text ≠ [])
    (h : key.decryptPrepended n sealed = .ok text) :
    ∃ iv ciphertext, sealed = iv ++ ciphertext ∧ iv.length = n ∧
      key.encryptPrepended iv text = .ok sealed := by
  have some : sealed ≠ [] := by
    rintro rfl
    cases h
    exact nonempty rfl
  obtain ⟨long, opened⟩ := (decryptPrepended_eq_ok some).mp h
  have parts := (List.take_append_drop n sealed).symm
  refine ⟨_, _, parts, List.length_take_of_le long, ?_⟩
  exact (encryptPrepended_eq_ok nonempty).mpr ⟨_, encrypt_of_decrypt nonempty opened, parts⟩

/-- The vector that was found is the one that is in front. -/
lemma encryptPrepended_of_take (nonempty : text ≠ []) (front : sealed.take iv.length = iv)
    (h : key.decryptPrepended iv.length sealed = .ok text) :
    key.encryptPrepended iv text = .ok sealed := by
  obtain ⟨iv', ciphertext, rfl, length, encrypted⟩ :=
    encryptPrepended_of_decryptPrepended nonempty h
  rw [List.take_left' length] at front
  subst front
  exact encrypted

/-! ## Both -/

/-- Encrypting and decrypting are inverses. With a whole key and a vector of a supported length
every text is encrypted and decrypted again, with the vector given or in front, also if it was
drawn at random. Whatever is decrypted to a text that is not empty is what that text encrypts to,
so it is the only ciphertext of the text with this vector. -/
theorem encrypt_decrypt_inverse (key : SymmetricKey) (iv : Bytes) (whole : key.bytes.length = size)
    (supported : iv.length ∈ [4, 7, 11, 12, 16]) :
    (∀ text, ∃ ciphertext, key.encrypt iv text = .ok ciphertext ∧
      key.decrypt iv ciphertext = .ok text) ∧
    (∀ text, ∃ sealed, key.encryptPrepended iv text = .ok sealed ∧
      key.decryptPrepended iv.length sealed = .ok text) ∧
    (∀ text ciphertext, text ≠ [] → key.decrypt iv ciphertext = .ok text →
      key.encrypt iv text = .ok ciphertext) ∧
    (∀ n text sealed, text ≠ [] → key.decryptPrepended n sealed = .ok text →
      ∃ iv' ciphertext, sealed = iv' ++ ciphertext ∧ iv'.length = n ∧
        key.encryptPrepended iv' text = .ok sealed) ∧
    (∀ text entropy, ∃ sealed entropy', key.encryptRandom text entropy = .ok (sealed, entropy') ∧
      key.decryptPrepended randomIvSize sealed = .ok text) ∧
    ∀ text, text ≠ [] →
      (∃! ciphertext, key.decrypt iv ciphertext = .ok text) ∧
      ∃! sealed, sealed.take iv.length = iv ∧
        key.decryptPrepended iv.length sealed = .ok text := by
  have length := isIvLength_iff.mpr supported
  refine ⟨?_, ?_, ?_, ?_, ?_, ?_⟩
  · intro text
    obtain ⟨ciphertext, encrypted, _⟩ := exists_encrypt length whole text
    exact ⟨ciphertext, encrypted, decrypt_of_encrypt encrypted⟩
  · intro text
    obtain ⟨sealed, encrypted, _⟩ := exists_encryptPrepended length whole text
    exact ⟨sealed, encrypted, decryptPrepended_of_encryptPrepended encrypted⟩
  · exact fun text ciphertext nonempty opened => encrypt_of_decrypt nonempty opened
  · exact fun n text sealed nonempty opened =>
      encryptPrepended_of_decryptPrepended nonempty opened
  · intro text entropy
    obtain ⟨sealed, encrypted, _⟩ := exists_encryptPrepended (isIvLength_draw entropy) whole text
    refine ⟨sealed, (entropy.draw randomIvSize).2, ?_, ?_⟩
    · exact Random.bind_eq_ok.mpr ⟨_, _, rfl, Random.ofExcept_eq_ok.mpr ⟨encrypted, rfl⟩⟩
    · have opened := decryptPrepended_of_encryptPrepended encrypted
      rwa [Entropy.length_draw] at opened
  · intro text nonempty
    refine ⟨?_, ?_⟩
    · obtain ⟨ciphertext, encrypted, _⟩ := exists_encrypt length whole text
      refine ⟨ciphertext, decrypt_of_encrypt encrypted, fun other opened => ?_⟩
      exact Except.ok.inj ((encrypt_of_decrypt nonempty opened).symm.trans encrypted)
    · obtain ⟨sealed, encrypted, _⟩ := exists_encryptPrepended length whole text
      obtain ⟨ciphertext, _, rfl⟩ := (encryptPrepended_eq_ok nonempty).mp encrypted
      refine ⟨_, ⟨List.take_left, decryptPrepended_of_encryptPrepended encrypted⟩, ?_⟩
      rintro other ⟨front, opened⟩
      exact Except.ok.inj ((encryptPrepended_of_take nonempty front opened).symm.trans encrypted)

/-- A greeting under the vector for contents, and under one that is drawn. -/
theorem encrypt_decrypt_inverse_content :
    let key : SymmetricKey := ⟨List.replicate 32 0⟩
    ∃ ciphertext sealed drawn entropy',
      key.encrypt contentIv [72, 105] = .ok ciphertext ∧
      (∀ other, key.decrypt contentIv other = .ok [72, 105] → other = ciphertext) ∧
      key.encryptPrepended contentIv [72, 105] = .ok sealed ∧
      key.decryptPrepended 7 sealed = .ok [72, 105] ∧
      key.encryptRandom [72, 105] (.ofSeed 0) = .ok (drawn, entropy') ∧
      key.decryptPrepended 16 drawn = .ok [72, 105] := by
  intro key
  obtain ⟨_, prepended, back, _, random, unique⟩ :=
    encrypt_decrypt_inverse key contentIv rfl (by decide)
  have some : ([72, 105] : Bytes) ≠ [] := List.cons_ne_nil _ _
  obtain ⟨ciphertext, decrypted, only⟩ := (unique [72, 105] some).1
  obtain ⟨sealed, encrypted, opened⟩ := prepended [72, 105]
  obtain ⟨drawn, entropy', encrypted', opened'⟩ := random [72, 105] (.ofSeed 0)
  exact ⟨ciphertext, sealed, drawn, entropy', back _ _ some decrypted, only, encrypted, opened,
    encrypted', opened'⟩

end SymmetricKey

end SealedMail
