import SealedMail.Bytes.Basic

/-!
# Random bytes

An endless supply of random bytes of which each is used once. Everything that chooses keys,
initialisation vectors or salts takes them from here; what is then done with them is a function.
-/

namespace SealedMail

/-- A supply of random bytes. -/
structure Entropy where
  byte : Nat → UInt8
  used : Nat

namespace Entropy

/-- The next `n` bytes, and what is left. -/
def draw (n : Nat) (entropy : Entropy) : Bytes × Entropy :=
  ((List.range n).map fun i => entropy.byte (entropy.used + i), ⟨entropy.byte, entropy.used + n⟩)

/-- A supply that a seed determines, without patterns but not secret. -/
def ofSeed (seed : UInt64) : Entropy where
  byte n :=
    let x := (seed + UInt64.ofNat n + 1) * 0x9e3779b97f4a7c15
    let x := (x ^^^ (x >>> 30)) * 0xbf58476d1ce4e5b9
    let x := (x ^^^ (x >>> 27)) * 0x94d049bb133111eb
    (x ^^^ (x >>> 31)).toUInt8
  used := 0

/-- As many bytes are drawn as were asked for. -/
@[simp]
theorem length_draw (n : Nat) (entropy : Entropy) : (entropy.draw n).1.length = n := by
  simp [draw]

end Entropy

/-- Computations that use random bytes and may fail. -/
abbrev Random (ε : Type) := StateT Entropy (Except ε)

namespace Random

def bytes {ε : Type} (n : Nat) : Random ε Bytes := fun entropy => .ok (entropy.draw n)

/-- A computation that uses no random bytes. -/
def ofExcept {ε α : Type} (result : Except ε α) : Random ε α := fun entropy =>
  result.map fun a => (a, entropy)

/-- The failure of a part as that of the whole. -/
def mapError {ε δ α : Type} (wrap : ε → δ) (computation : Random ε α) : Random δ α := fun entropy =>
  (computation entropy).mapError wrap

end Random

end SealedMail
