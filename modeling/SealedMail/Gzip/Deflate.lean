import SealedMail.Gzip.Inflate

/-!
# Deflating

Two ways to write data so that inflating gives it back. The plain one writes blocks that hold the
bytes as they are. The dense one writes a single block under the fixed codes, in which a run of
bytes that came up before is a copy of its last appearance.
-/

namespace SealedMail.Gzip

/-- A number in two bytes, the low one first. -/
def lowFirst (n : Nat) : Bytes := (Bytes.ofNat 2 n).reverse

/-- The greatest number of bytes in a block that holds them as they are. -/
def storedSize : Nat := 65535

/-- A block that holds bytes as they are. -/
def storedBlock (last : Bool) (b : Bytes) : Bytes :=
  last.toUInt8 :: (lowFirst b.length ++ ((lowFirst b.length).map (~~~ ·) ++ b))

def storedBlocks : List Bytes → Bytes
  | [] => storedBlock true []
  | [piece] => storedBlock true piece
  | piece :: pieces => storedBlock false piece ++ storedBlocks pieces

def deflateStored (b : Bytes) : Bytes := storedBlocks (b.pieces storedSize)

/-- How many of the bytes agree with those of `data` from a position on, up to a limit. -/
def common (data : Array UInt8) : Nat → Nat → Bytes → Nat
  | limit + 1, position, x :: rest =>
    if data[position]? = some x then common data limit (position + 1) rest + 1 else 0
  | _, _, _ => 0

/-- The slot for three bytes in the table of last appearances. -/
def slot (a b c : UInt8) : Nat := (a.toNat * 1024 + b.toNat * 32 + c.toNat) % 65536

/-- The tokens for the bytes from a position on, in reverse before those in `done`. The first `skip`
of the bytes are part of a copy. The table tells where three bytes appeared last, counted from 1. -/
def tokensOnto (data : Array UInt8) :
    Bytes → Nat → Nat → Array Nat → List Token → List Token
  | [], _, _, _, done => (.endOfBlock :: done).reverse
  | x :: rest, position, skip, recent, done =>
    let slot := slot x (rest.getD 0 0) (rest.getD 1 0)
    let last := recent.getD slot 0
    let recent := recent.setIfInBounds slot (position + 1)
    match skip with
    | skip + 1 => tokensOnto data rest (position + 1) skip recent done
    | 0 =>
      let distance := position + 1 - last
      -- a copy reaches 32768 bytes back and has at most 258 bytes
      let length :=
        if last = 0 ∨ 32768 < distance then 0 else common data 258 (last - 1) (x :: rest)
      if 4 ≤ length then
        tokensOnto data rest (position + 1) (length - 1) recent (.copy length distance :: done)
      else tokensOnto data rest (position + 1) 0 recent (.literal x :: done)

def tokens (b : Bytes) : List Token := tokensOnto b.toArray b 0 0 (Array.replicate 65536 0) []

/-- The strings of the fixed code for bytes and lengths, in the order of the symbols. -/
def fixedStrings : Array (List Bool) :=
  (PrefixCode.strings 0 0 (PrefixCode.inOrder fixedLiterals)).foldl
    (fun table entry => table.setIfInBounds entry.2 entry.1)
    (Array.replicate fixedLiterals.length [])

/-- The last kind whose least value is not above `n`, and the further bits that give `n`. -/
def kindOf (kinds : List (Nat × Nat)) (n : Nat) : Nat × List Bool :=
  let kind := (kinds.takeWhile fun kind => kind.1 ≤ n).length - 1
  let (least, width) := kinds.getD kind (0, 0)
  (kind, (List.range width).map fun i => (n - least).testBit i)

/-- The bits of a token under the fixed codes. -/
def Token.bits : Token → List Bool
  | .literal x => fixedStrings.getD x.toNat []
  | .endOfBlock => fixedStrings.getD 256 []
  | .copy length distance =>
    let (lengthKind, lengthBits) := kindOf lengthKinds length
    let (distanceKind, distanceBits) := kindOf distanceKinds distance
    fixedStrings.getD (257 + lengthKind) [] ++ lengthBits ++
      (PrefixCode.path 5 distanceKind ++ distanceBits)

/-- Bytes of the given bits, the lowest first. The byte at hand has the given value so far, and its
next bit the given weight; the bytes before it are in `done` in reverse. -/
def packOnto : List Bool → Nat → Nat → Bytes → Bytes
  | [], weight, value, done =>
    (if weight = 1 then done else UInt8.ofNat value :: done).reverse
  | bit :: rest, weight, value, done =>
    let value := if bit then value + weight else value
    if weight = 128 then packOnto rest 1 0 (UInt8.ofNat value :: done)
    else packOnto rest (2 * weight) value done

/-- The data in one block of tokens under the fixed codes. -/
def deflateFixed (b : Bytes) : Bytes :=
  packOnto ([true, true, false] ++ (tokens b).flatMap Token.bits) 1 0 []

/-- The data in the dense form, if that is the shorter one and gives the data back. -/
def deflate (b : Bytes) : Bytes :=
  let dense := deflateFixed b
  let plain := deflateStored b
  if dense.length < plain.length then
    match (inflate 0 dense).complete? with
    | some (output, s) => if s.rest = [] ∧ output = b then dense else plain
    | none => plain
  else plain

end SealedMail.Gzip
