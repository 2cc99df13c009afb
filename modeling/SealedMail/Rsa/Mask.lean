import SealedMail.Digest.Sha512

/-!
# Masks

Bytes that a short seed determines: the digests of the seed with successive numbers behind it.
-/

namespace SealedMail.Rsa

/-- A mask of the given length. -/
def mask (seed : Bytes) (length : Nat) : Bytes :=
  ((List.range (length / Sha512.size + 1)).flatMap fun i =>
    Sha512.digest (seed ++ Bytes.ofNat 4 i)).take length

end SealedMail.Rsa
