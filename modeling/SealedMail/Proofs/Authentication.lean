import SealedMail.Proofs.Meta

/-!
# Accepted ciphertexts

A ciphertext is accepted exactly if it ends with the tag that the key and the vector give to what is
in front of the tag. Of a ciphertext behind a vector the same is true, with one exception: a vector
with nothing behind it is accepted for any key, as the empty text, although nothing is ever encrypted
to it (`SymmetricKey.accepted_iff_tagged`, `SymmetricKey.bare_vector_accepted`). So the body of an
envelope is accepted only if somebody with the private data key made it, or if it is as long as a
vector.
-/

namespace SealedMail

namespace Gcm

variable {key iv sealed : Bytes}

/-- The bytes end with the tag of what is in front of it. -/
def IsTagged (key iv sealed : Bytes) : Prop :=
  tagSize ≤ sealed.length ∧
    sealed.drop (sealed.length - tagSize) =
      tag (Aes.Schedule.ofKey key) (startCounter (Aes.Schedule.ofKey key) iv)
        (sealed.take (sealed.length - tagSize))

/-- What carries its tag is decrypted, and nothing else is. -/
lemma exists_decrypt? : (∃ text, decrypt? key iv sealed = some text) ↔ IsTagged key iv sealed := by
  rw [decrypt?]
  split
  next short =>
    refine ⟨?_, fun tagged => absurd tagged.1 (Nat.not_le_of_lt short)⟩
    rintro ⟨_, ⟨⟩⟩
  next long =>
    dsimp only
    split
    next same => exact ⟨fun _ => ⟨Nat.le_of_not_lt long, same⟩, fun _ => ⟨_, rfl⟩⟩
    next other =>
      refine ⟨?_, fun tagged => absurd tagged.2 other⟩
      rintro ⟨_, ⟨⟩⟩

/-- Only what the cipher made of some text ends with its tag. -/
lemma isTagged_iff : IsTagged key iv sealed ↔ ∃ text, sealed = encrypt key iv text := by
  rw [← exists_decrypt?]
  exact exists_congr fun text => decrypt?_eq_some

end Gcm

namespace SymmetricKey

variable {key : SymmetricKey} {iv ciphertext sealed : Bytes}

/-- A key of the right length decrypts what carries its tag, under an initial value of one of the
lengths that are allowed. -/
lemma exists_decrypt (nonempty : ciphertext ≠ []) :
    (∃ text, key.decrypt iv ciphertext = .ok text) ↔
      key.bytes.length = size ∧ iv.length ∈ [4, 7, 11, 12, 16] ∧
        Gcm.IsTagged key.bytes iv ciphertext := by
  rw [← isIvLength_iff, Gcm.isTagged_iff]
  simp only [decrypt_eq_ok nonempty, exists_and_left]
  exact and_left_comm

/-- Behind a vector there is room for a tag, unless there is nothing. -/
lemma exists_decryptPrepended {n : Nat} (nonempty : sealed ≠ []) (more : sealed.length ≠ n) :
    (∃ text, key.decryptPrepended n sealed = .ok text) ↔
      key.bytes.length = size ∧ n ∈ [4, 7, 11, 12, 16] ∧ n + Gcm.tagSize ≤ sealed.length ∧
        Gcm.IsTagged key.bytes (sealed.take n) (sealed.drop n) := by
  simp only [decryptPrepended_eq_ok nonempty, exists_and_left]
  by_cases long : n ≤ sealed.length
  · have behind : sealed.drop n ≠ [] := by
      rw [ne_eq, List.drop_eq_nil_iff]
      omega
    rw [exists_decrypt behind, List.length_take_of_le long]
    refine ⟨?_, ?_⟩
    · rintro ⟨_, whole, supported, tagged⟩
      have room := tagged.1
      rw [List.length_drop] at room
      exact ⟨whole, supported, by omega, tagged⟩
    · rintro ⟨whole, supported, _, tagged⟩
      exact ⟨long, whole, supported, tagged⟩
  · refine ⟨fun h => absurd h.1 long, fun h => absurd ?_ long⟩
    exact Nat.le_of_add_right_le h.2.2.1

/-- A vector alone is accepted, whatever it is. -/
lemma decryptPrepended_length (key : SymmetricKey) (iv : Bytes) :
    key.decryptPrepended iv.length iv = .ok [] := by
  cases iv with
  | nil => rfl
  | cons x rest =>
    rw [decryptPrepended_eq_ok (List.cons_ne_nil x rest), List.drop_length]
    exact ⟨Nat.le_refl _, rfl⟩

/-- A ciphertext that is not empty is accepted exactly if the key is whole, the vector is of a
supported length, and the ciphertext ends with its tag. With the vector in front there must be room
for the vector and the tag as well. Only if there is nothing behind the vector is it accepted
without a tag, whatever the vector and the key are. So the body of an envelope of version 1, if it
is neither empty nor as long as a vector, is what the cipher makes with the private data key of a
text that describes the state. A body as long as a vector tells that the message was neither read
nor done with. -/
theorem accepted_iff_tagged (key : SymmetricKey) :
    (∀ iv ciphertext : Bytes, ciphertext ≠ [] →
      ((∃ text, key.decrypt iv ciphertext = .ok text) ↔
        key.bytes.length = size ∧ iv.length ∈ [4, 7, 11, 12, 16] ∧
          Gcm.IsTagged key.bytes iv ciphertext)) ∧
    (∀ (n : Nat) (sealed : Bytes), sealed ≠ [] → sealed.length ≠ n →
      ((∃ text, key.decryptPrepended n sealed = .ok text) ↔
        key.bytes.length = size ∧ n ∈ [4, 7, 11, 12, 16] ∧ n + Gcm.tagSize ≤ sealed.length ∧
          Gcm.IsTagged key.bytes (sealed.take n) (sealed.drop n))) ∧
    (∀ iv : Bytes, key.decryptPrepended iv.length iv = .ok []) ∧
    (∀ (body : Bytes) (state : MessageState), body ≠ [] → body.length ≠ randomIvSize →
      SealedState.decrypt ⟨Bytes.ofUInt32 1 ++ body, key⟩ = .ok state →
      ∃ (iv : Bytes) (text : String), iv.length = randomIvSize ∧ key.bytes.length = size ∧
        body = iv ++ Gcm.encrypt key.bytes iv (.ofString text) ∧
        MessageState.ofText 1 text = .ok state) ∧
    ∀ body : Bytes, body.length = randomIvSize →
      SealedState.decrypt ⟨Bytes.ofUInt32 1 ++ body, key⟩ = .ok ⟨1, false, false, []⟩ := by
  refine ⟨fun iv ciphertext nonempty => exists_decrypt nonempty,
    fun n sealed nonempty more => exists_decryptPrepended nonempty more,
    decryptPrepended_length key, ?_, ?_⟩
  · intro body state nonempty more opened
    obtain ⟨text, plain, described⟩ := (SealedState.decrypt_known UInt32.le_rfl).mp opened
    obtain ⟨long, plain⟩ := (decryptPrepended_eq_ok nonempty).mp plain
    have behind : body.drop randomIvSize ≠ [] := by
      rw [ne_eq, List.drop_eq_nil_iff]
      omega
    obtain ⟨_, whole, made⟩ := (decrypt_eq_ok behind).mp plain
    refine ⟨body.take randomIvSize, text, List.length_take_of_le long, whole, ?_, described⟩
    rw [← made, List.take_append_drop]
  · intro body length
    refine (SealedState.decrypt_known UInt32.le_rfl).mpr ⟨"", ?_, rfl⟩
    show key.decryptPrepended randomIvSize body = _
    rw [← length]
    exact decryptPrepended_length key body

/-- A ciphertext without room for a tag, one behind a vector, and one that the cipher made of an
empty object. -/
theorem accepted_iff_tagged_object :
    let key : SymmetricKey := ⟨List.replicate 32 107⟩
    let iv : Bytes := List.replicate 16 118
    let body := iv ++ Gcm.encrypt key.bytes iv (.ofString "\x7b\x7d")
    (¬ ∃ text, key.decrypt contentIv [1, 2, 3] = .ok text) ∧
    (¬ ∃ text, key.decryptPrepended 16 (iv ++ [1, 2, 3]) = .ok text) ∧
    (∃ text, key.decryptPrepended 16 body = .ok text) ∧ body.length = 34 := by
  intro key iv body
  have length : body.length = 34 := by
    rw [List.length_append, Gcm.length_encrypt]
    decide
  have nonempty : body ≠ [] := List.ne_nil_of_length_pos (length ▸ by decide)
  obtain ⟨refused, prepended, _⟩ := accepted_iff_tagged key
  refine ⟨?_, ?_, ?_, length⟩
  · rw [refused contentIv [1, 2, 3] (by decide)]
    exact fun accepted => absurd accepted.2.2.1 (by decide)
  · rw [prepended 16 (iv ++ [1, 2, 3]) (by decide) (by decide)]
    exact fun accepted => absurd accepted.2.2.1 (by decide)
  · rw [prepended 16 body nonempty (by rw [length]; decide), length]
    refine ⟨rfl, by decide, by decide, ?_⟩
    have front : body.take 16 = iv := List.take_left' rfl
    have behind : body.drop 16 = Gcm.encrypt key.bytes iv (.ofString "\x7b\x7d") :=
      List.drop_left' rfl
    rw [front, behind]
    exact Gcm.isTagged_iff.mpr ⟨_, rfl⟩

/-- Sixteen bytes that nobody encrypted are accepted, and an envelope is opened with them. -/
theorem bare_vector_accepted :
    let key : SymmetricKey := ⟨List.replicate 32 107⟩
    let body : Bytes := List.replicate 16 118
    body ≠ [] ∧ key.decryptPrepended 16 body = .ok [] ∧ ¬ 16 + Gcm.tagSize ≤ body.length ∧
      SealedState.decrypt ⟨Bytes.ofUInt32 1 ++ body, key⟩ = .ok ⟨1, false, false, []⟩ ∧
      ¬ ∃ iv text, iv.length = 16 ∧ body = iv ++ Gcm.encrypt key.bytes iv text := by
  intro key body
  refine ⟨by decide, rfl, by decide, rfl, ?_⟩
  rintro ⟨iv, text, length, made⟩
  have longer := congrArg List.length made
  rw [List.length_append, Gcm.length_encrypt, length] at longer
  have size : body.length = 16 := rfl
  have tag : Gcm.tagSize = 16 := rfl
  omega

end SymmetricKey

end SealedMail
