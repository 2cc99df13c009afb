import SealedMail.Bytes.Basic

/-!
# Base64 text

The standard alphabet with padding. Reading accepts exactly what writing produces: groups of four
digits, padding only at the end, and no bits set that the last byte does not use.
-/

namespace SealedMail.Base64

def digits : List Char :=
  "ABCDEFGHIJKLMNOPQRSTUVWXYZabcdefghijklmnopqrstuvwxyz0123456789+/".toList

/-- The digit of a value below 64. -/
def digit (n : Nat) : Char := digits.getD n 'A'

def value? (c : Char) : Option Nat := digits.findIdx? (· == c)

/-- The four characters for a group of one to three bytes. -/
def encodeGroup : Bytes → List Char
  | [a] => [digit (a.toNat / 4), digit (a.toNat % 4 * 16), '=', '=']
  | [a, b] =>
    [digit (a.toNat / 4), digit (a.toNat % 4 * 16 + b.toNat / 16), digit (b.toNat % 16 * 4), '=']
  | a :: b :: c :: _ =>
    [digit (a.toNat / 4), digit (a.toNat % 4 * 16 + b.toNat / 16),
      digit (b.toNat % 16 * 4 + c.toNat / 64), digit (c.toNat % 64)]
  | [] => []

/-- The bytes in groups of three, four digits for each. -/
def encode (b : Bytes) : String := String.ofList ((Bytes.pieces 3 b).flatMap encodeGroup)

/-- The byte of eight bits given as a number. -/
def byte (n : Nat) : UInt8 := UInt8.ofNat (n % 256)

def decodeFull (p q r s : Nat) : Bytes :=
  [byte (p * 4 + q / 16), byte (q * 16 + r / 4), byte (r * 64 + s)]

/-- The bytes that the digits spell, in front of which those in `done` are put in reverse. -/
def decodeOnto : List Char → Bytes → Option Bytes
  | [], done => some done.reverse
  | [c₁, c₂, '=', '='], done => do
    let p ← value? c₁
    let q ← value? c₂
    if q % 16 = 0 then some (done.reverse ++ [byte (p * 4 + q / 16)]) else none
  | [c₁, c₂, c₃, '='], done => do
    let p ← value? c₁
    let q ← value? c₂
    let r ← value? c₃
    if r % 4 = 0 then some (done.reverse ++ [byte (p * 4 + q / 16), byte (q * 16 + r / 4)])
    else none
  | c₁ :: c₂ :: c₃ :: c₄ :: rest, done => do
    let p ← value? c₁
    let q ← value? c₂
    let r ← value? c₃
    let s ← value? c₄
    decodeOnto rest ((decodeFull p q r s).reverse ++ done)
  | _, _ => none

def decode? (text : String) : Option Bytes := decodeOnto text.toList []

end SealedMail.Base64
