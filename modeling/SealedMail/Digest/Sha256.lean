import SealedMail.Digest.Sha512

/-!
# SHA-256

The hash function over words of 32 bits, and the number of 64 bits by which stored pictures are
known: the front of the digest.
-/

namespace SealedMail.Sha256

/-- The front half of a word. -/
def front (x : UInt64) : UInt32 := (x >>> 32).toUInt32

/-- The first 32 bits of the fractional parts of the cube roots of the first 64 primes. -/
def constants : List UInt32 := (Sha512.constants.take 64).map front

/-- The first 32 bits of the fractional parts of the square roots of the first eight primes. -/
def start : Digest.State UInt32 :=
  let s := Sha512.start
  ⟨front s.a, front s.b, front s.c, front s.d, front s.e, front s.f, front s.g, front s.h⟩

/-- The word turned right by a number of bits from 1 to 31. -/
def turn (x : UInt32) (n : UInt32) : UInt32 := (x >>> n) ||| (x <<< (32 - n))

def variant : Digest.Variant UInt32 where
  wordSize := 4
  ofNat := UInt32.ofNat
  toNat := UInt32.toNat
  add := (· + ·)
  xor := (· ^^^ ·)
  and := (· &&& ·)
  not := (~~~ ·)
  roundA x := turn x 2 ^^^ turn x 13 ^^^ turn x 22
  roundE x := turn x 6 ^^^ turn x 11 ^^^ turn x 25
  scheduleEarly x := turn x 7 ^^^ turn x 18 ^^^ (x >>> 3)
  scheduleLate x := turn x 17 ^^^ turn x 19 ^^^ (x >>> 10)
  constants := constants
  start := start

def digest (b : Bytes) : Bytes := variant.digest b

/-- The first eight bytes of the digest as a signed number. -/
def identifier (b : Bytes) : Int :=
  let n := Bytes.toNat ((digest b).take 8)
  if n < UInt64.size / 2 then n else (n : Int) - UInt64.size

end SealedMail.Sha256
