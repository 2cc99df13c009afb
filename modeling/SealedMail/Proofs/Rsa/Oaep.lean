import SealedMail.Proofs.Bytes
import SealedMail.Proofs.Digest
import SealedMail.Proofs.Rsa.Numbers
import SealedMail.Proofs.Runs
import SealedMail.Rsa.Oaep

/-!
# Texts decrypted with the private key

Padding is undone by the same masks in reverse order (`Oaep.unpad?_pad`). The padded text begins with
a zero byte, so that its number is below the modulus, and by the laws of the two functions of the
key it is found again (`Oaep.decrypt?_of_encrypt?`).
-/

namespace SealedMail.Rsa

/-! ## Sizes -/

/-- A mask has the length that was asked for. -/
@[simp]
lemma length_mask (seed : Bytes) (length : Nat) : (mask seed length).length = length := by
  have blocks (n : Nat) :
      ((List.range n).flatMap fun i => Sha512.digest (seed ++ Bytes.ofNat 4 i)).length =
        Sha512.size * n := by
    induction n with
    | zero => rfl
    | succ n ih =>
      rw [List.range_succ, List.flatMap_append, List.length_append, ih, List.flatMap_singleton,
        Sha512.length_digest, Nat.mul_succ]
  rw [mask, List.length_take, blocks, Nat.min_eq_left]
  have := Nat.lt_mul_div_succ length (show 0 < Sha512.size by decide)
  omega

namespace PublicNumbers

variable (key : PublicNumbers)

/-- The modulus is not zero. -/
lemma modulus_pos : 0 < key.modulus := Nat.zero_lt_of_lt key.isPublic.2.1

/-- The modulus has as many bytes as its size tells. -/
lemma modulus_lt : key.modulus < 256 ^ key.size := by
  refine Nat.lt_of_lt_of_le Nat.lt_log2_self ?_
  rw [show 256 = 2 ^ 8 from rfl, ← Nat.pow_mul]
  apply Nat.pow_le_pow_right Nat.two_pos
  rw [size, bits]
  omega

/-- The modulus has no fewer bytes than its size tells. -/
lemma pow_le_modulus : 256 ^ (key.size - 1) ≤ key.modulus := by
  refine Nat.le_trans ?_ (Nat.log2_self_le (Nat.ne_of_gt key.modulus_pos))
  rw [show 256 = 2 ^ 8 from rfl, ← Nat.pow_mul]
  apply Nat.pow_le_pow_right Nat.two_pos
  rw [size, bits]
  omega

end PublicNumbers

namespace Oaep

/-! ## Padding -/

/-- The digest of the label is as long as any other. -/
lemma length_labelDigest : labelDigest.length = Sha512.size := Sha512.length_digest []

/-- A text that fits is padded to the size of the key. -/
lemma length_pad {size : Nat} {seed text : Bytes} (length_seed : seed.length = Sha512.size)
    (fits : text.length + 2 * Sha512.size + 2 ≤ size) : (pad size seed text).length = size := by
  simp only [pad, List.length_cons, List.length_append, Bytes.length_xor, length_mask,
    length_labelDigest, List.length_replicate, maxLength, length_seed]
  omega

/-- A text is found behind the zeros and the mark. -/
lemma unpadText?_zeros (n : Nat) (text : Bytes) :
    unpadText? (List.replicate n 0 ++ 1 :: text) = some text := by
  have behind : (List.replicate n 0 ++ 1 :: text : Bytes).dropWhile (· = 0) = 1 :: text := by
    apply dropWhile_run
    · intro x hx
      exact decide_eq_true (List.eq_of_mem_replicate hx)
    · intro x hx
      cases hx
      rfl
  rw [unpadText?, behind]
  rfl

/-- Removing the padding undoes it. -/
lemma unpad?_pad (size : Nat) {seed : Bytes} (length_seed : seed.length = Sha512.size)
    (text : Bytes) : unpad? (pad size seed text) = some text := by
  obtain ⟨data, hdata⟩ : ∃ data, data =
      labelDigest ++ (List.replicate (maxLength size - text.length) 0 ++ 1 :: text) := ⟨_, rfl⟩
  obtain ⟨masked, hmasked⟩ : ∃ masked, masked = Bytes.xor data (mask seed data.length) := ⟨_, rfl⟩
  have length_masked : masked.length = data.length := by
    rw [hmasked, Bytes.length_xor, length_mask, Nat.min_self]
  have length_hidden : (Bytes.xor seed (mask masked seed.length)).length = Sha512.size := by
    rw [Bytes.length_xor, length_mask, Nat.min_self, length_seed]
  have padded : pad size seed text = 0 :: (Bytes.xor seed (mask masked seed.length) ++ masked) := by
    rw [hmasked, hdata]
    rfl
  -- the masks come off in the other order: the text hides the seed, so the seed is found first
  have seed_again : Bytes.xor (Bytes.xor seed (mask masked seed.length)) (mask masked Sha512.size) =
      seed := by
    rw [← length_seed]
    exact Bytes.xor_xor _ _ (Nat.le_of_eq (length_mask _ _).symm)
  have data_again : Bytes.xor masked (mask seed masked.length) = data := by
    rw [length_masked, hmasked]
    exact Bytes.xor_xor _ _ (Nat.le_of_eq (length_mask _ _).symm)
  rw [padded]
  simp only [unpad?]
  rw [← length_hidden, List.take_left, List.drop_left, length_hidden, seed_again, data_again, hdata,
    ← length_labelDigest, List.take_left, List.drop_left, if_pos rfl]
  exact unpadText?_zeros _ _

/-! ## Ciphertexts -/

/-- A padded text is below the modulus. -/
lemma toNat_pad_lt (key : PublicNumbers) {seed text : Bytes}
    (length_seed : seed.length = Sha512.size)
    (fits : text.length + 2 * Sha512.size + 2 ≤ key.size) :
    Bytes.toNat (pad key.size seed text) < key.modulus := by
  obtain ⟨rest, hrest⟩ : ∃ rest, pad key.size seed text = 0 :: rest := ⟨_, rfl⟩
  have length := length_pad length_seed fits
  rw [hrest] at length ⊢
  have number : Bytes.toNat (0 :: rest) = Bytes.toNat rest := rfl
  have below := Bytes.toNat_lt rest
  rw [show rest.length = key.size - 1 by rw [← length]; rfl] at below
  rw [number]
  exact Nat.lt_of_lt_of_le below key.pow_le_modulus

/-- A text that fits is padded and raised. -/
lemma encrypt?_eq {key : PublicNumbers} {text : Bytes}
    (fits : text.length + 2 * Sha512.size + 2 ≤ key.size) (seed : Bytes) :
    encrypt? key seed text =
      some (Bytes.ofNat key.size (key.raise (Bytes.toNat (pad key.size seed text)))) :=
  if_pos fits

/-- A text that was encrypted fits, and the ciphertext has the size of the key. -/
lemma of_encrypt? {key : PublicNumbers} {seed text ciphertext : Bytes}
    (h : encrypt? key seed text = some ciphertext) :
    text.length + 2 * Sha512.size + 2 ≤ key.size ∧ ciphertext.length = key.size := by
  rw [encrypt?] at h
  split at h
  next fits =>
    cases h
    exact ⟨fits, Bytes.length_ofNat _ _⟩
  next => cases h

/-- The private half of a pair of primes decrypts what the public half encrypted. -/
theorem decrypt?_of_encrypt? {key : PrivateNumbers} (pair : key.IsPrimePair) {seed : Bytes}
    (length_seed : seed.length = Sha512.size) {text ciphertext : Bytes}
    (h : encrypt? key.toPublic seed text = some ciphertext) :
    decrypt? key ciphertext = some text := by
  rw [encrypt?] at h
  split at h
  next fits =>
    cases h
    have small := toNat_pad_lt key.toPublic length_seed fits
    have number := Bytes.toNat_ofNat_of_lt (Nat.lt_trans
      (key.raise_lt (Bytes.toNat (pad key.toPublic.size seed text))) key.toPublic.modulus_lt)
    have enough : 2 * Sha512.size + 2 ≤ key.toPublic.size := by omega
    rw [decrypt?, if_pos ⟨Bytes.length_ofNat _ _, enough⟩, number, pair.root?_raise small]
    have same := Bytes.ofNat_toNat (pad key.toPublic.size seed text)
    rw [length_pad length_seed fits] at same
    show unpad? (Bytes.ofNat _ _) = some text
    rw [same, unpad?_pad _ length_seed]
  next => cases h

end Oaep

end SealedMail.Rsa
