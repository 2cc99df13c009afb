import SealedMail.Gzip.Crc32
import SealedMail.Gzip.Deflate
import SealedMail.Gzip.Passes

/-!
# Members

Compressed data with a header in front and a trailer behind it that tells the checksum and the
length of what was compressed. What follows the trailer is not looked at. The trailer is looked at
only after all of the data has been handed on.
-/

namespace SealedMail.Gzip

/-- The most bytes in a name or a comment. -/
def textSize : Nat := 65535

/-- What follows a text that ends with a zero byte. -/
def skipText (b : Bytes) : Option Bytes :=
  if (b.takeWhile (· ≠ 0)).length ≤ textSize then
    match b.dropWhile (· ≠ 0) with
    | _ :: rest => some rest
    | [] => none
  else none

/-- What follows a field of which the length comes first. -/
def skipExtra : Bytes → Option Bytes
  | a :: b :: rest =>
    let length := a.toNat + 256 * b.toNat
    if length ≤ rest.length then some (rest.drop length) else none
  | _ => none

/-- What follows the front half of the checksum of the header. -/
def skipChecksum (header : Bytes) : Bytes → Option Bytes
  | a :: b :: rest =>
    if a.toNat + 256 * b.toNat = (checksum header).value.toNat % 65536 then some rest else none
  | _ => none

/-- A step that a bit of the flags asks for. -/
def optionally (flags mask : UInt8) (step : Bytes → Option Bytes) (b : Bytes) : Option Bytes :=
  if flags &&& mask = 0 then some b else step b

def skipHeader (b : Bytes) : Option Bytes :=
  match b with
  | 0x1f :: 0x8b :: 8 :: flags :: _ :: _ :: _ :: _ :: _ :: _ :: rest =>
    -- the first three flags are reserved; the others ask for fields in the order below
    if flags &&& 0xe0 ≠ 0 then none
    else do
      let rest ← optionally flags 4 skipExtra rest
      let rest ← optionally flags 8 skipText rest
      let rest ← optionally flags 16 skipText rest
      optionally flags 2 (skipChecksum (b.take (b.length - rest.length))) rest
  | _ => none

/-- The header that is written: no flags, no time, no system. -/
def header : Bytes := [0x1f, 0x8b, 8, 0, 0, 0, 0, 0, 0, 0xff]

/-- Where the last row of buffers begins by which a member comes in. A field of the header that
takes up the whole of the second buffer comes in at once, and the buffers begin anew after it. -/
def bufferStart (b : Bytes) : Nat :=
  let fieldEnd := 12 + (b.getD 10 0).toNat + 256 * (b.getD 11 0).toNat
  if b.getD 3 0 &&& 4 ≠ 0 ∧ 2 * bufferSize ≤ fieldEnd then fieldEnd else 0

/-- What comes after compressed data begins with the trailer. -/
def hasTrailer (sum : Checksum) (s : BitStream) : Bool := sum.trailer.isPrefixOf s.rest

/-- A member that is read. -/
structure Member where
  source : Source
  /-- The length of the header. -/
  start : Nat
  body : Bytes

namespace Member

/-- The member that the data begins with, if that has a header. -/
def read? (b : Bytes) : Option Member := do
  let body ← skipHeader b
  return ⟨⟨b.length, bufferStart b⟩, b.length - body.length, body⟩

def decoding (member : Member) : Decoding := inflate member.start member.body

def passes (member : Member) : Passes :=
  let supply? := member.source.supply? member.start
  member.decoding.passes member.source hasTrailer ⟨supply?, 0, [], .start⟩

end Member

def decompress? (b : Bytes) : Option Bytes := do
  let member ← Member.read? b
  let (data, s) ← member.decoding.complete?
  if hasTrailer (checksum data) s then return data else none

/-- The data of a member as it is handed on. -/
def passes (b : Bytes) : Passes := (Member.read? b).elim .broken Member.passes

def compress (b : Bytes) : Bytes := header ++ (deflate b ++ (checksum b).trailer)

end SealedMail.Gzip
