import SealedMail.Proofs.Rsa.Oaep
import SealedMail.Rsa.Pss

/-!
# Signatures verified with the public key

What signing pads, verifying finds to be padded (`Pss.isPadded_of_pad?`): the unused bits are clear,
the mask can be taken off, and the salt behind zeros and a one gives the same digest. A signature
is a root that was tested, so that a signature is good whatever the factors of the key
(`Pss.verify_of_sign?`). If they are primes there always is a root, as the unused bits keep the
padded digest below the modulus (`Pss.exists_sign?`).
-/

namespace SealedMail.Rsa.Pss

/-! ## Unused bits -/

/-- Fewer than eight bits of the first byte are unused. -/
lemma unused_lt (bits : Nat) : 8 * sizeOfBits bits - bits < 8 := by
  rw [sizeOfBits]
  omega

/-- Bits that were cleared are not there. -/
lemma and_not_and (x u : UInt8) : x &&& ~~~u &&& u = 0 := by
  apply UInt8.toBitVec_inj.mp
  ext i
  simp

/-- A mask takes itself away again from all bits that are used. -/
lemma clear_mask (x y u : UInt8) : ((x ^^^ y) &&& ~~~u ^^^ y) &&& ~~~u = x &&& ~~~u := by
  apply UInt8.toBitVec_inj.mp
  ext i
  simp
  cases x.toBitVec[i] <;> cases y.toBitVec[i] <;> cases u.toBitVec[i] <;> rfl

/-- Of the masked bytes with some bits cleared, the same bits are lost when the mask is taken off. -/
lemma clear_xor_clear (bits : Nat) {b m : Bytes} (length : m.length = b.length) :
    clear bits (Bytes.xor (clear bits (Bytes.xor b m)) m) = clear bits b := by
  cases b with
  | nil => rfl
  | cons x b =>
    cases m with
    | nil => cases length
    | cons y m =>
      have rest : Bytes.xor (Bytes.xor b m) m = b :=
        Bytes.xor_xor b m (Nat.le_of_eq (Nat.succ.inj length).symm)
      show (((x ^^^ y) &&& ~~~unusedBits bits ^^^ y) &&& ~~~unusedBits bits) ::
        Bytes.xor (Bytes.xor b m) m = _
      rw [rest, clear_mask]
      rfl

/-- The unused bits of the first byte are cleared. -/
lemma headD_clear (bits : Nat) (b : Bytes) : (clear bits b).headD 0 &&& unusedBits bits = 0 := by
  cases b with
  | nil => exact UInt8.zero_and
  | cons x b => exact and_not_and x _

/-- Clearing bits takes no byte away. -/
@[simp]
lemma length_clear (bits : Nat) (b : Bytes) : (clear bits b).length = b.length := by
  cases b <;> rfl

/-- Data that begins with zeros or the mark has no unused bits to clear. -/
lemma clear_data (bits zeros : Nat) (salt : Bytes) :
    clear bits (List.replicate zeros 0 ++ 1 :: salt) = List.replicate zeros 0 ++ 1 :: salt := by
  cases zeros with
  | zero =>
    have lowest : ∀ k < 8, (1 : UInt8) &&& ~~~ ~~~(0xff >>> UInt8.ofNat k) = 1 := by decide
    show ((1 : UInt8) &&& ~~~unusedBits bits) :: salt = 1 :: salt
    rw [unusedBits, lowest _ (unused_lt bits)]
  | succ zeros =>
    show ((0 : UInt8) &&& ~~~unusedBits bits) :: _ = _
    rw [UInt8.zero_and]
    rfl

/-- With the unused bits clear, the first byte has as many bits as are used of it. -/
lemma head_lt_of_clear {bits : Nat} {b rest : Bytes} {x : UInt8} (h : clear bits b = x :: rest) :
    x.toNat < 2 ^ (8 - (8 * sizeOfBits bits - bits)) := by
  have used : ∀ k < 8, (~~~ ~~~(0xff >>> UInt8.ofNat k) : UInt8).toNat < 2 ^ (8 - k) := by decide
  cases b with
  | nil => cases h
  | cons y b =>
    obtain rfl : y &&& ~~~unusedBits bits = x := (List.cons.inj h).1
    rw [UInt8.toNat_and]
    exact Nat.lt_of_le_of_lt Nat.and_le_right (used _ (unused_lt bits))

/-! ## Padding -/

/-- The digest with its salt is as long as any other. -/
lemma length_saltedDigest (digest salt : Bytes) :
    (saltedDigest digest salt).length = Sha512.size := Sha512.length_digest _

/-- A padded digest is a masked salt, a digest and the trailer. -/
lemma pad?_eq {bits : Nat} {salt text padded : Bytes} (length_salt : salt.length = saltSize)
    (h : pad? bits salt text = some padded) :
    ∃ zeros masked, minSize ≤ sizeOfBits bits ∧ zeros = sizeOfBits bits - minSize ∧
      masked = clear bits (Bytes.xor (List.replicate zeros 0 ++ 1 :: salt)
        (mask (saltedDigest (Sha512.digest text) salt) (zeros + 1 + saltSize))) ∧
      masked.length = zeros + 1 + saltSize ∧
      padded = masked ++ (saltedDigest (Sha512.digest text) salt ++ [0xbc]) := by
  rw [pad?] at h
  split at h
  next enough =>
    have length_data : (List.replicate (sizeOfBits bits - minSize) 0 ++ 1 :: salt : Bytes).length =
        sizeOfBits bits - minSize + 1 + saltSize := by
      rw [List.length_append, List.length_replicate, List.length_cons, length_salt]
      omega
    refine ⟨_, _, enough, rfl, rfl, ?_, ?_⟩
    · rw [length_clear, Bytes.length_xor, length_data, length_mask, Nat.min_self]
    · rw [← Option.some.inj h, length_data]
  next => cases h

/-- A padded digest has as many bytes as its bits need. -/
lemma length_of_pad? {bits : Nat} {salt text padded : Bytes} (length_salt : salt.length = saltSize)
    (h : pad? bits salt text = some padded) : padded.length = sizeOfBits bits := by
  obtain ⟨zeros, masked, enough, hzeros, _, length_masked, hpadded⟩ := pad?_eq length_salt h
  rw [hpadded, List.length_append, length_masked, List.length_append, length_saltedDigest,
    List.length_singleton, hzeros]
  rw [minSize] at enough ⊢
  omega

/-- What signing pads, verifying finds to be padded. -/
lemma isPadded_of_pad? {bits : Nat} {salt text padded : Bytes}
    (length_salt : salt.length = saltSize) (h : pad? bits salt text = some padded) :
    isPadded bits text padded = true := by
  have length_padded := length_of_pad? length_salt h
  obtain ⟨zeros, masked, enough, hzeros, hmasked, length_masked, rfl⟩ := pad?_eq length_salt h
  have length_data : (List.replicate zeros 0 ++ 1 :: salt : Bytes).length =
      zeros + 1 + saltSize := by
    rw [List.length_append, List.length_replicate, List.length_cons, length_salt]
    omega
  have dataSize : sizeOfBits bits - Sha512.size - 1 = masked.length := by
    rw [length_masked, hzeros]
    rw [minSize] at enough ⊢
    omega
  -- the bits that were cleared behind the mask are cleared again when it is taken off
  have unmasked : clear bits (Bytes.xor masked
      (mask (saltedDigest (Sha512.digest text) salt) masked.length)) =
        List.replicate zeros 0 ++ 1 :: salt := by
    rw [length_masked, hmasked, clear_xor_clear, clear_data]
    rw [length_mask, length_data]
  have front : masked.headD 0 &&& unusedBits bits = 0 := by
    rw [hmasked]
    exact headD_clear bits _
  have zeros_one : (List.replicate zeros 0 ++ 1 :: salt : Bytes) =
      (List.replicate zeros 0 ++ [1]) ++ salt := by
    rw [List.append_assoc, List.singleton_append]
  have length_zeros_one : (List.replicate zeros 0 ++ [1] : Bytes).length = zeros + 1 := by
    rw [List.length_append, List.length_replicate, List.length_singleton]
  have salt_again : (List.replicate zeros 0 ++ 1 :: salt : Bytes).drop (zeros + 1) = salt := by
    rw [zeros_one, List.drop_left' length_zeros_one]
  have zeros_again : (List.replicate zeros 0 ++ 1 :: salt : Bytes).take (zeros + 1) =
      List.replicate zeros 0 ++ [1] := by
    rw [zeros_one, List.take_left' length_zeros_one]
  rw [isPadded]
  simp only [dataSize, List.take_left, List.drop_left, ← hzeros]
  rw [List.take_left' (length_saltedDigest _ _), unmasked, salt_again, zeros_again, front,
    length_padded]
  simp [enough]

/-! ## Signatures -/

/-- A padded digest has no more bytes than the key. -/
lemma sizeOfBits_le (key : PublicNumbers) : sizeOfBits (key.bits - 1) ≤ key.size := by
  rw [sizeOfBits, PublicNumbers.size]
  omega

/-- A signature has the size of the key. -/
lemma length_of_sign? {key : PrivateNumbers} {salt text signature : Bytes}
    (h : sign? key salt text = some signature) : signature.length = key.toPublic.size := by
  obtain ⟨padded, _, h⟩ := Option.bind_eq_some_iff.mp h
  obtain ⟨root, _, h⟩ := Option.bind_eq_some_iff.mp h
  rw [← show Bytes.ofNat key.toPublic.size root = signature from Option.some.inj h,
    Bytes.length_ofNat]

/-- The public half verifies what the private half signed. -/
theorem verify_of_sign? {key : PrivateNumbers} {salt text signature : Bytes}
    (length_salt : salt.length = saltSize) (signed : sign? key salt text = some signature) :
    verify key.toPublic text signature = true := by
  obtain ⟨padded, hpadded, h⟩ := Option.bind_eq_some_iff.mp signed
  obtain ⟨root, hroot, h⟩ := Option.bind_eq_some_iff.mp h
  obtain ⟨small, raised⟩ := PrivateNumbers.of_root? hroot
  have signature_eq : Bytes.ofNat key.toPublic.size root = signature := Option.some.inj h
  have number : Bytes.toNat signature = root := by
    rw [← signature_eq]
    exact Bytes.toNat_ofNat_of_lt (Nat.lt_trans small key.toPublic.modulus_lt)
  have length_signature := length_of_sign? signed
  have length_padded := length_of_pad? length_salt hpadded
  have padded_again : (Bytes.ofNat key.toPublic.size (Bytes.toNat padded)).drop
      (key.toPublic.size - sizeOfBits (key.toPublic.bits - 1)) = padded := by
    obtain ⟨n, hn⟩ := Nat.exists_eq_add_of_le' (sizeOfBits_le key.toPublic)
    rw [hn, Nat.add_sub_cancel, ← length_padded, Bytes.ofNat_add_toNat]
    exact List.drop_left' (List.length_replicate)
  rw [verify]
  simp only [number, raised, padded_again, isPadded_of_pad? length_salt hpadded, length_signature,
    beq_self_eq_true, Bool.true_and, Bool.and_true]
  exact decide_eq_true small

/-- A padded digest is below the power of two for its bits. -/
lemma toNat_pad?_lt {bits : Nat} {salt text padded : Bytes} (length_salt : salt.length = saltSize)
    (h : pad? bits salt text = some padded) : Bytes.toNat padded < 2 ^ bits := by
  have length_padded := length_of_pad? length_salt h
  obtain ⟨zeros, masked, enough, _, hmasked, length_masked, hpadded⟩ := pad?_eq length_salt h
  cases masked with
  | nil => cases length_masked
  | cons x rest =>
    obtain ⟨tail, rfl⟩ : ∃ tail, padded = x :: tail := ⟨_, hpadded⟩
    -- the first byte has the unused bits cleared, which bounds the whole number
    have front := head_lt_of_clear hmasked.symm
    have behind := Bytes.toNat_lt tail
    rw [List.length_cons] at length_padded
    rw [← List.singleton_append, Bytes.toNat_append]
    calc Bytes.toNat [x] * 256 ^ tail.length + Bytes.toNat tail
      _ < x.toNat * 256 ^ tail.length + 256 ^ tail.length := by
        rw [show Bytes.toNat [x] = x.toNat from Nat.zero_add _]
        exact Nat.add_lt_add_left behind _
      _ = (x.toNat + 1) * 256 ^ tail.length := (Nat.succ_mul _ _).symm
      _ ≤ 2 ^ (8 - (8 * sizeOfBits bits - bits)) * 256 ^ tail.length :=
        Nat.mul_le_mul_right _ front
      _ = 2 ^ bits := by
        rw [show 256 = 2 ^ 8 from rfl, ← Nat.pow_mul, ← Nat.pow_add]
        congr 1
        have := unused_lt bits
        rw [sizeOfBits] at *
        omega

/-- A pair of primes that is large enough signs every text. -/
theorem exists_sign? {key : PrivateNumbers} (pair : key.IsPrimePair) {salt : Bytes}
    (length_salt : salt.length = saltSize)
    (large : minSize ≤ sizeOfBits (key.toPublic.bits - 1)) (text : Bytes) :
    ∃ signature, sign? key salt text = some signature := by
  obtain ⟨padded, hpadded⟩ : ∃ padded, pad? (key.toPublic.bits - 1) salt text = some padded :=
    ⟨_, if_pos large⟩
  have small : Bytes.toNat padded < key.p * key.q := by
    refine Nat.lt_of_lt_of_le (toNat_pad?_lt length_salt hpadded) ?_
    exact Nat.log2_self_le (Nat.ne_of_gt key.toPublic.modulus_pos)
  obtain ⟨root, hroot⟩ := pair.exists_root? small
  refine ⟨Bytes.ofNat key.toPublic.size root, ?_⟩
  rw [sign?, hpadded]
  show (key.root? (Bytes.toNat padded)).bind _ = _
  rw [hroot]
  rfl

end SealedMail.Rsa.Pss
