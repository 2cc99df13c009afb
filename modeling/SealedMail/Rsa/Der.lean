import SealedMail.Bytes.Basic

/-!
# Distinguished encoding

Data as nested elements: a tag, a length and contents. Each element has one encoding, so a length
or an integer that is written longer than it must be is refused.
-/

namespace SealedMail.Der

def integerTag : UInt8 := 0x02

def bitStringTag : UInt8 := 0x03

def octetStringTag : UInt8 := 0x04

def sequenceTag : UInt8 := 0x30

/-- The tags of elements of types that are known everywhere. -/
def universalTags : List UInt8 :=
  [0x01, 0x02, 0x03, 0x04, 0x05, 0x06, 0x09, 0x0a, 0x0c, 0x12, 0x13, 0x14, 0x15, 0x16, 0x17, 0x18,
    0x1a, 0x1e, 0x30, 0x31]

/-- The byte is a tag: one of a known type, or one of another class with a number that fits. -/
def isTag (tag : UInt8) : Bool :=
  if tag < 0x40 then universalTags.contains tag else tag &&& 0x1f ≠ 0x1f

/-- A length: one byte below 128, or the number of the bytes that follow and these. -/
def lengthBytes (n : Nat) : Bytes :=
  if n < 128 then [UInt8.ofNat n]
  else
    let width := n.log2 / 8 + 1
    UInt8.ofNat (0x80 + width) :: Bytes.ofNat width n

def element (tag : UInt8) (contents : Bytes) : Bytes :=
  tag :: (lengthBytes contents.length ++ contents)

/-- A length in its one encoding, and what follows it. -/
def readLength? : Bytes → Option (Nat × Bytes)
  | [] => none
  | x :: rest =>
    if x < 0x80 then some (x.toNat, rest)
    else
      let width := x.toNat - 0x80
      let digits := rest.take width
      let n := Bytes.toNat digits
      -- no encoding counts but the one that is written
      if width ≤ 4 ∧ lengthBytes n = x :: digits then some (n, rest.drop width) else none

/-- The tag and the contents of the first element, and what follows it. -/
def read? : Bytes → Option (UInt8 × Bytes × Bytes)
  | [] => none
  | tag :: rest => do
    let (length, rest) ← readLength? rest
    if isTag tag ∧ length ≤ rest.length then some (tag, rest.take length, rest.drop length)
    else none

/-- The contents of the first element, which has the given tag, and what follows it. -/
def take? (tag : UInt8) (b : Bytes) : Option (Bytes × Bytes) := do
  let (actual, contents, rest) ← read? b
  if actual = tag then some (contents, rest) else none

/-- The contents of the only element, which has the given tag. -/
def only? (tag : UInt8) (b : Bytes) : Option Bytes := do
  let (contents, rest) ← take? tag b
  if rest.isEmpty then some contents else none

/-- The contents of a natural number: its bytes, with a leading bit that is not set. -/
def naturalBytes (n : Nat) : Bytes := Bytes.ofNat ((n.log2 + 1) / 8 + 1) n

def natural (n : Nat) : Bytes := element integerTag (naturalBytes n)

/-- The natural number in its one encoding. -/
def natural? (contents : Bytes) : Option Nat :=
  let n := Bytes.toNat contents
  if naturalBytes n = contents then some n else none

/-- A row of natural numbers and nothing else. -/
def naturals? : Nat → Bytes → Option (List Nat)
  | _, [] => some []
  | 0, _ => none
  | count + 1, b => do
    let (contents, rest) ← take? integerTag b
    let n ← natural? contents
    return n :: (← naturals? count rest)

end SealedMail.Der
