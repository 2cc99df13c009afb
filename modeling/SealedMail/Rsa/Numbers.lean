import SealedMail.Rsa.Arithmetic

/-!
# RSA numbers

The numbers of a public and of a private key, and the two functions between numbers below the
modulus that they define. Only numbers with which these functions can be inverse to each other are
taken for a key; that the factors of the modulus are prime is not tested. The inverse function
tests its result instead.
-/

namespace SealedMail.Rsa

/-- A modulus and an exponent that can make a public key. -/
def IsPublic (modulus exponent : Nat) : Prop :=
  modulus % 2 = 1 ∧ exponent < modulus ∧ exponent % 2 = 1 ∧ 2 ≤ exponent ∧ exponent < 0x200000000

instance (modulus exponent : Nat) : Decidable (IsPublic modulus exponent) := by
  unfold IsPublic; infer_instance

/-- Factors of a modulus and exponents that can make a private key. -/
def IsPrivate (exponent secret p q : Nat) : Prop :=
  1 < p ∧ 1 < q ∧ exponent * secret % (p - 1) = 1 ∧ exponent * secret % (q - 1) = 1

instance (exponent secret p q : Nat) : Decidable (IsPrivate exponent secret p q) := by
  unfold IsPrivate; infer_instance

structure PublicNumbers where
  modulus : Nat
  exponent : Nat
  isPublic : IsPublic modulus exponent
  deriving DecidableEq

/-- The numbers of a private key: the exponents and the factors of the modulus. -/
structure PrivateNumbers where
  exponent : Nat
  secret : Nat
  p : Nat
  q : Nat
  isPublic : IsPublic (p * q) exponent
  isPrivate : IsPrivate exponent secret p q
  deriving DecidableEq

namespace PublicNumbers

def ofNumbers? (modulus exponent : Nat) : Option PublicNumbers :=
  if h : IsPublic modulus exponent then some ⟨modulus, exponent, h⟩ else none

def bits (key : PublicNumbers) : Nat := key.modulus.log2 + 1

def size (key : PublicNumbers) : Nat := (key.bits + 7) / 8

/-- The function that everyone can compute. -/
def raise (key : PublicNumbers) (m : Nat) : Nat := powMod m key.exponent key.modulus

end PublicNumbers

namespace PrivateNumbers

def ofNumbers? (modulus exponent secret p q : Nat) : Option PrivateNumbers :=
  if h : p * q = modulus ∧ IsPublic (p * q) exponent ∧ IsPrivate exponent secret p q then
    some ⟨exponent, secret, p, q, h.2.1, h.2.2⟩
  else none

def toPublic (key : PrivateNumbers) : PublicNumbers := ⟨key.p * key.q, key.exponent, key.isPublic⟩

/-- The factor by which the remainders of a number modulo `p` and `q` are put together. -/
def coefficient? (key : PrivateNumbers) : Option Nat := inverse? key.q key.p

/-- A candidate for the number that `raise` maps to `c`, found modulo each factor if these have no
common divisor. -/
def candidate (key : PrivateNumbers) (c : Nat) : Nat :=
  match key.coefficient? with
  | none => powMod c key.secret (key.p * key.q)
  | some coefficient =>
    let a := powMod c (key.secret % (key.p - 1)) key.p
    let b := powMod c (key.secret % (key.q - 1)) key.q
    -- `b`, and the multiple of `q` that makes the remainder modulo `p` right
    let difference := ((a : Int) - b) % key.p
    b + difference.toNat * coefficient % key.p * key.q

def root? (key : PrivateNumbers) (c : Nat) : Option Nat :=
  if c < key.p * key.q then
    let m := key.candidate c
    if key.toPublic.raise m = c then some m else none
  else none

end PrivateNumbers

end SealedMail.Rsa
