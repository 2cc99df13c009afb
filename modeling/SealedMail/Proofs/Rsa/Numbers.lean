import Mathlib.FieldTheory.Finite.Basic
import Mathlib.Data.Nat.ModEq
import SealedMail.Rsa.Numbers

/-!
# The two functions of a key are inverse

Euclid's algorithm finds inverses (`inverse?_of_coprime`), and by Fermat's theorem an exponent only
counts modulo `p - 1` (`pow_modEq_self`). For a key of two primes the candidate for a root is
therefore the power with the secret exponent modulo each factor (`candidate_modEq`), and modulo both
there is only one such number. So `root?` undoes `raise` and never fails below the modulus.
-/

namespace SealedMail.Rsa

/-! ## Powers -/

/-- The power is computed up to multiples of the modulus. -/
theorem powMod_eq (base exponent modulus : Nat) :
    powMod base exponent modulus = base ^ exponent % modulus := by
  induction exponent using Nat.strongRecOn generalizing base with
  | ind exponent ih =>
    rw [powMod]
    split
    next h => rw [h, Nat.pow_zero]
    next h =>
      have square : (base * base % modulus) ^ (exponent / 2) % modulus =
          base ^ (2 * (exponent / 2)) % modulus := by
        rw [← Nat.pow_mod, Nat.pow_mul, Nat.pow_two]
      simp only [ih _ (show exponent / 2 < exponent by omega), square]
      split
      next even => rw [show 2 * (exponent / 2) = exponent by omega]
      next odd =>
        rw [Nat.mul_mod, Nat.mod_mod, ← Nat.mul_mod, Nat.mul_comm, ← Nat.pow_succ,
          show (2 * (exponent / 2)).succ = exponent by omega]

/-! ## Inverses -/

/-- The greatest common divisor comes with its coefficients. -/
lemma bezout_spec (a b : Nat) :
    ((bezout a b).1 : Int) = a * (bezout a b).2.1 + b * (bezout a b).2.2 ∧
      (bezout a b).1 = Nat.gcd a b := by
  induction a using Nat.strongRecOn generalizing b with
  | ind a ih =>
    rw [bezout]
    split
    next zero =>
      subst zero
      exact ⟨by simp, (Nat.gcd_zero_left b).symm⟩
    next nonzero =>
      obtain ⟨combination, divisor⟩ := ih (b % a) (Nat.mod_lt _ (Nat.pos_of_ne_zero nonzero)) a
      refine ⟨?_, ?_⟩
      · have division : (a : Int) * ((b / a : Nat) : Int) + ((b % a : Nat) : Int) = (b : Int) := by
          exact_mod_cast Nat.div_add_mod b a
        dsimp only
        rw [combination, ← division]
        ring
      · dsimp only
        rw [divisor, ← Nat.gcd_rec]

/-- A number without a common divisor with the modulus has an inverse. -/
theorem inverse?_of_coprime {a modulus : Nat} (big : 1 < modulus) (h : Nat.Coprime a modulus) :
    ∃ c, inverse? a modulus = some c ∧ a * c ≡ 1 [MOD modulus] := by
  obtain ⟨combination, divisor⟩ := bezout_spec (a % modulus) modulus
  have one : (bezout (a % modulus) modulus).1 = 1 := by
    rw [divisor, ← Nat.gcd_rec, Nat.gcd_comm]
    exact h
  refine ⟨_, if_pos one, ?_⟩
  rw [one] at combination
  have positive : 0 ≤ (bezout (a % modulus) modulus).2.1 % (modulus : Int) :=
    Int.emod_nonneg _ (by omega)
  apply Int.natCast_modEq_iff.mp
  rw [Nat.cast_mul, Int.toNat_of_nonneg positive]
  calc (a : Int) * ((bezout (a % modulus) modulus).2.1 % modulus)
    _ ≡ (a % modulus : Nat) * (bezout (a % modulus) modulus).2.1 [ZMOD modulus] := by
      refine Int.ModEq.mul ?_ (Int.mod_modEq _ _)
      exact Int.natCast_modEq_iff.mpr (Nat.mod_modEq a modulus).symm
    _ ≡ 1 [ZMOD modulus] := by
      apply Int.modEq_of_dvd
      refine ⟨(bezout (a % modulus) modulus).2.2, ?_⟩
      push_cast at combination ⊢
      omega

/-- A number with the remainder `a` modulo `p` and `b` modulo `q`. -/
lemma recombine_modEq {a b coefficient p q : Nat} (positive : 0 < p)
    (inverse : q * coefficient ≡ 1 [MOD p]) :
    b + (((a : Int) - b) % p).toNat * coefficient % p * q ≡ a [MOD p] ∧
      b + (((a : Int) - b) % p).toNat * coefficient % p * q ≡ b [MOD q] := by
  obtain ⟨d, hd⟩ : ∃ d : Nat, (d : Int) = ((a : Int) - b) % p :=
    ⟨_, Int.toNat_of_nonneg (Int.emod_nonneg _ (by omega))⟩
  rw [← hd, Int.toNat_natCast]
  refine ⟨?_, Nat.add_mul_mod_self_right _ _ _⟩
  apply Int.natCast_modEq_iff.mp
  have difference : (d : Int) ≡ a - b [ZMOD p] := by
    rw [hd]
    exact Int.mod_modEq _ _
  have factor : ((d * coefficient % p * q : Nat) : Int) ≡ d [ZMOD p] := by
    apply Int.natCast_modEq_iff.mpr
    calc d * coefficient % p * q
      _ ≡ d * coefficient * q [MOD p] := Nat.ModEq.mul_right _ (Nat.mod_modEq _ _)
      _ = d * (q * coefficient) := by ring
      _ ≡ d * 1 [MOD p] := Nat.ModEq.mul_left _ inverse
      _ = d := Nat.mul_one d
  calc ((b + d * coefficient % p * q : Nat) : Int)
    _ = b + ((d * coefficient % p * q : Nat) : Int) := Nat.cast_add _ _
    _ ≡ b + (a - b) [ZMOD p] := Int.ModEq.add_left _ (factor.trans difference)
    _ = a := by ring

/-! ## Powers modulo a prime -/

/-- An exponent only counts modulo `p - 1`, unless that leaves nothing of it. -/
lemma pow_mod_modEq {p n : Nat} (prime : p.Prime) (some : n % (p - 1) ≠ 0) (c : Nat) :
    c ^ (n % (p - 1)) ≡ c ^ n [MOD p] := by
  by_cases divides : p ∣ c
  · have nonzero : n ≠ 0 := by
      rintro rfl
      exact some (Nat.zero_mod _)
    have zero {k : Nat} (hk : k ≠ 0) : c ^ k ≡ 0 [MOD p] :=
      Nat.modEq_zero_iff_dvd.mpr (Dvd.dvd.pow divides hk)
    exact (zero some).trans (zero nonzero).symm
  · have fermat : c ^ (p - 1) ≡ 1 [MOD p] := by
      rw [← Nat.totient_prime prime]
      exact Nat.ModEq.pow_totient ((Nat.Prime.coprime_iff_not_dvd prime).mpr divides).symm
    calc c ^ (n % (p - 1))
      _ = 1 ^ (n / (p - 1)) * c ^ (n % (p - 1)) := by rw [Nat.one_pow, Nat.one_mul]
      _ ≡ (c ^ (p - 1)) ^ (n / (p - 1)) * c ^ (n % (p - 1)) [MOD p] :=
        Nat.ModEq.mul_right _ (fermat.symm.pow _)
      _ = c ^ n := by rw [← Nat.pow_mul, ← Nat.pow_add, Nat.div_add_mod]

/-- A number is its own power if the exponent leaves the remainder 1. -/
lemma pow_modEq_self {p n : Nat} (prime : p.Prime) (one : n % (p - 1) = 1) (c : Nat) :
    c ^ n ≡ c [MOD p] := by
  have h := pow_mod_modEq prime (one ▸ Nat.one_ne_zero) c
  rw [one, Nat.pow_one] at h
  exact h.symm

namespace PrivateNumbers

/-- The key is made of two primes. -/
structure IsPrimePair (key : PrivateNumbers) : Prop where
  p_prime : key.p.Prime
  q_prime : key.q.Prime
  ne : key.p ≠ key.q

variable {key : PrivateNumbers}

/-- The factors are at least two. -/
lemma two_le (key : PrivateNumbers) : 2 ≤ key.p ∧ 2 ≤ key.q := ⟨key.isPrivate.1, key.isPrivate.2.1⟩

/-- The candidate for a root is below the modulus. -/
lemma candidate_lt (key : PrivateNumbers) (c : Nat) : key.candidate c < key.p * key.q := by
  obtain ⟨hp, hq⟩ := key.two_le
  rw [candidate]
  split
  next =>
    rw [powMod_eq]
    exact Nat.mod_lt _ (Nat.mul_pos (by omega) (by omega))
  next coefficient _ =>
    dsimp only
    -- a digit below `q`, and one below `p` in front of it
    rw [powMod_eq _ _ key.q]
    have low : c ^ (key.secret % (key.q - 1)) % key.q < key.q := Nat.mod_lt _ (by omega)
    have high (n : Nat) : n % key.p + 1 ≤ key.p := Nat.mod_lt _ (by omega)
    refine Nat.lt_of_lt_of_le (Nat.add_lt_add_right low _) ?_
    rw [Nat.add_comm, ← Nat.succ_mul]
    exact Nat.mul_le_mul_right _ (high _)

/-- Different primes have no common divisor. -/
lemma IsPrimePair.coprime (pair : key.IsPrimePair) : Nat.Coprime key.p key.q :=
  (Nat.coprime_primes pair.p_prime pair.q_prime).mpr pair.ne

/-- The secret exponent is not zero for either factor. -/
lemma secret_mod_ne_zero {p : Nat} (h : key.exponent * key.secret % (p - 1) = 1) :
    key.secret % (p - 1) ≠ 0 := by
  intro zero
  rw [Nat.mul_mod, zero, Nat.mul_zero, Nat.zero_mod] at h
  exact Nat.zero_ne_one h

/-- A candidate is the power with the secret exponent, modulo each factor. -/
lemma IsPrimePair.candidate_modEq (pair : key.IsPrimePair) (c : Nat) :
    key.candidate c ≡ c ^ key.secret [MOD key.p] ∧ key.candidate c ≡ c ^ key.secret [MOD key.q] := by
  obtain ⟨big, _, modP, modQ⟩ := key.isPrivate
  obtain ⟨coefficient, found, inverse⟩ := inverse?_of_coprime big pair.coprime.symm
  rw [candidate, coefficient?, found]
  dsimp only
  rw [powMod_eq, powMod_eq]
  have a := (Nat.mod_modEq _ _).trans (pow_mod_modEq pair.p_prime (secret_mod_ne_zero modP) c)
  have b := (Nat.mod_modEq _ _).trans (pow_mod_modEq pair.q_prime (secret_mod_ne_zero modQ) c)
  obtain ⟨first, second⟩ := recombine_modEq (Nat.zero_lt_of_lt big) inverse
  exact ⟨first.trans a, second.trans b⟩

/-- A number to the power of both exponents is the number. -/
lemma IsPrimePair.eq_of_modEq (pair : key.IsPrimePair) {m n : Nat} (hm : m < key.p * key.q)
    (hn : n < key.p * key.q)
    (modP : m ≡ n ^ (key.exponent * key.secret) [MOD key.p])
    (modQ : m ≡ n ^ (key.exponent * key.secret) [MOD key.q]) : m = n := by
  have p := modP.trans (pow_modEq_self pair.p_prime key.isPrivate.2.2.1 n)
  have q := modQ.trans (pow_modEq_self pair.q_prime key.isPrivate.2.2.2 n)
  exact Nat.ModEq.eq_of_lt_of_lt ((Nat.modEq_and_modEq_iff_modEq_mul pair.coprime).mp ⟨p, q⟩) hm hn

/-- The public operation raises to the public exponent. -/
lemma raise_eq (m : Nat) : key.toPublic.raise m = m ^ key.exponent % (key.p * key.q) :=
  powMod_eq _ _ _

/-- What is raised is below the modulus. -/
lemma raise_lt (m : Nat) : key.toPublic.raise m < key.p * key.q := by
  obtain ⟨hp, hq⟩ := key.two_le
  rw [raise_eq]
  exact Nat.mod_lt _ (Nat.mul_pos (by omega) (by omega))

/-- The public operation raises up to multiples of each factor. -/
lemma raise_modEq (m : Nat) :
    key.toPublic.raise m ≡ m ^ key.exponent [MOD key.p] ∧
      key.toPublic.raise m ≡ m ^ key.exponent [MOD key.q] := by
  rw [raise_eq]
  have whole := Nat.mod_modEq (m ^ key.exponent) (key.p * key.q)
  exact ⟨whole.of_mul_right _, whole.of_mul_left _⟩

/-- A root that is found is below the modulus, and is raised to the number. -/
lemma of_root? {c m : Nat} (h : key.root? c = some m) :
    m < key.p * key.q ∧ key.toPublic.raise m = c := by
  rw [root?] at h
  split at h
  next =>
    dsimp only at h
    split at h
    next tested =>
      cases h
      exact ⟨key.candidate_lt c, tested⟩
    next => cases h
  next => cases h

/-- For two primes the candidate undoes the public operation. -/
lemma IsPrimePair.candidate_raise (pair : key.IsPrimePair) {m : Nat} (h : m < key.p * key.q) :
    key.candidate (key.toPublic.raise m) = m := by
  obtain ⟨p, q⟩ := pair.candidate_modEq (key.toPublic.raise m)
  obtain ⟨p', q'⟩ := key.raise_modEq m
  apply pair.eq_of_modEq (key.candidate_lt _) h
  · rw [Nat.pow_mul]
    exact p.trans (p'.pow _)
  · rw [Nat.pow_mul]
    exact q.trans (q'.pow _)

/-- For two primes the public operation undoes the candidate. -/
lemma IsPrimePair.raise_candidate (pair : key.IsPrimePair) {c : Nat} (h : c < key.p * key.q) :
    key.toPublic.raise (key.candidate c) = c := by
  obtain ⟨p, q⟩ := pair.candidate_modEq c
  obtain ⟨p', q'⟩ := key.raise_modEq (key.candidate c)
  apply pair.eq_of_modEq (key.raise_lt _) h
  · rw [Nat.mul_comm, Nat.pow_mul]
    exact p'.trans (p.pow _)
  · rw [Nat.mul_comm, Nat.pow_mul]
    exact q'.trans (q.pow _)

/-- The private function undoes the public one. -/
theorem IsPrimePair.root?_raise (pair : key.IsPrimePair) {m : Nat} (h : m < key.p * key.q) :
    key.root? (key.toPublic.raise m) = some m := by
  rw [root?, if_pos (key.raise_lt m), pair.candidate_raise h, if_pos rfl]

/-- For two primes every number below the modulus has a root. -/
theorem IsPrimePair.exists_root? (pair : key.IsPrimePair) {c : Nat} (h : c < key.p * key.q) :
    ∃ m, key.root? c = some m := by
  refine ⟨key.candidate c, ?_⟩
  rw [root?, if_pos h]
  exact if_pos (pair.raise_candidate h)

end PrivateNumbers

end SealedMail.Rsa
