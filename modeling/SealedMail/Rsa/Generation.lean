import SealedMail.Entropy
import SealedMail.Rsa.Numbers

/-!
# Generating keys

Two random primes of half the bits each, found by trying random odd numbers. A number counts as
prime if it has no small divisor and is a strong probable prime to a row of small bases.
-/

namespace SealedMail.Rsa

def smallPrimes : List Nat :=
  (List.range 200).filter fun n => 2 ≤ n && (List.range n).all fun d => d < 2 || n % d ≠ 0

/-- Some of the next squarings leaves the remainder -1. -/
def reachesMinusOne (n : Nat) : Nat → Nat → Bool
  | 0, _ => false
  | squarings + 1, x => x == n - 1 || reachesMinusOne n squarings (x * x % n)

/-- A number as an odd number and how often it has to be doubled. -/
def split (fuel m : Nat) (twos : Nat) : Nat × Nat :=
  match fuel with
  | 0 => (m, twos)
  | fuel + 1 => if m % 2 = 0 then split fuel (m / 2) (twos + 1) else (m, twos)

/-- The number is a strong probable prime to a base. -/
def isStrongProbablePrime (n base : Nat) : Bool :=
  let (odd, twos) := split n.log2 (n - 1) 0
  let x := powMod base odd n
  x == 1 || reachesMinusOne n twos x

/-- The number has no small divisor and is a strong probable prime to all small bases. -/
def isProbablePrime (n : Nat) : Bool :=
  (smallPrimes.all fun p => n == p || n % p != 0) &&
    smallPrimes.all fun p => n == p || isStrongProbablePrime n p

/-- A random odd number of the given number of bits, of which the first two are set. -/
def oddNumber {ε : Type} (bits : Nat) : Random ε Nat := do
  let n := Bytes.toNat (← Random.bytes ((bits + 7) / 8)) % (1 <<< bits)
  return n ||| 1 ||| 1 <<< (bits - 1) ||| 1 <<< (bits - 2)

/-- A probable prime of the given number of bits, if one is found soon. -/
def probablePrime? {ε : Type} (bits : Nat) : Nat → Random ε (Option Nat)
  | 0 => pure none
  | tries + 1 => do
    let n ← oddNumber bits
    if isProbablePrime n then return some n else probablePrime? bits tries

def newExponent : Nat := 65537

/-- The least number of bits in a new key, so that the modulus is above the exponent. -/
def minBits : Nat := 17

/-- The key of two primes, if they can make one. -/
def ofPrimes? (bits p q : Nat) : Option PrivateNumbers := do
  let secret ← inverse? newExponent ((p - 1) * (q - 1))
  if p ≠ q ∧ (p * q).log2 + 1 = bits then PrivateNumbers.ofNumbers? (p * q) newExponent secret p q
  else none

/-- A new key, if one is found soon. -/
def generate? {ε : Type} (bits : Nat) : Nat → Random ε (Option PrivateNumbers)
  | 0 => pure none
  | tries + 1 => do
    match ← probablePrime? (bits - bits / 2) 100000, ← probablePrime? (bits / 2) 100000 with
    | some p, some q =>
      match ofPrimes? bits p q with
      | some key => return some key
      | none => generate? bits tries
    | _, _ => return none

def generate {ε : Type} (bits : Nat) : Random ε (Option PrivateNumbers) :=
  if minBits ≤ bits then generate? bits 1000 else pure none

end SealedMail.Rsa
