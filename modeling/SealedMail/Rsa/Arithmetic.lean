/-!
# Modular arithmetic

Powers by repeated squaring, and inverses by Euclid's algorithm.
-/

namespace SealedMail.Rsa

def powMod (base exponent modulus : Nat) : Nat :=
  if h : exponent = 0 then 1 % modulus
  else
    have : exponent / 2 < exponent := by omega
    let half := powMod (base * base % modulus) (exponent / 2) modulus
    if exponent % 2 = 0 then half else base * half % modulus
termination_by exponent

/-- The greatest common divisor `g` of two numbers, with factors for which `a * x + b * y = g`. -/
def bezout (a b : Nat) : Nat × Int × Int :=
  if h : a = 0 then (b, 0, 1)
  else
    have : b % a < a := Nat.mod_lt _ (by omega)
    let (g, x, y) := bezout (b % a) a
    (g, y - (b / a : Nat) * x, x)
termination_by a

/-- The number below `modulus` whose product with `a` leaves the remainder 1, if there is one. -/
def inverse? (a modulus : Nat) : Option Nat :=
  let (g, x, _) := bezout (a % modulus) modulus
  if g = 1 then some (x % (modulus : Int)).toNat else none

end SealedMail.Rsa
