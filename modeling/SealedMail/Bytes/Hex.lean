import SealedMail.Bytes.Basic

/-!
# Hexadecimal text

Two lower-case digits for each byte. Reading accepts either letter case.
-/

namespace SealedMail.Hex

def digits : List Char := "0123456789abcdef".toList

/-- The digit of a value below 16. -/
def digit (n : Nat) : Char := digits.getD n '0'

/-- The value of a digit, in either letter case. -/
def value? (c : Char) : Option Nat := digits.findIdx? (· == c.toLower)

def isDigit (c : Char) : Bool := c.isDigit || ('a' ≤ c && c ≤ 'f') || ('A' ≤ c && c ≤ 'F')

def encodeByte (x : UInt8) : List Char := [digit (x.toNat / 16), digit (x.toNat % 16)]

/-- The bytes in lower-case digits, two for each. -/
def encode (b : Bytes) : String := String.ofList (b.flatMap encodeByte)

/-- The bytes that pairs of digits spell, in front of which those in `done` are put in reverse. -/
def decodeOnto : List Char → Bytes → Option Bytes
  | [], done => some done.reverse
  | [_], _ => none
  | high :: low :: rest, done =>
    match value? high, value? low with
    | some h, some l => decodeOnto rest (UInt8.ofNat (h * 16 + l) :: done)
    | _, _ => none

def decode? (text : String) : Option Bytes := decodeOnto text.toList []

/-- A digit is read as the value it was written for. -/
theorem value?_digit : ∀ n < 16, value? (digit n) = some n := by decide

/-- The bytes that were written are read back behind those that are done. -/
theorem decodeOnto_encode (b done : Bytes) :
    decodeOnto (b.flatMap encodeByte) done = some (done.reverse ++ b) := by
  induction b generalizing done with
  | nil => simp [decodeOnto]
  | cons x b ih =>
    have bound : x.toNat < 256 := x.toNat_lt_size
    simp only [List.flatMap_cons, encodeByte, List.cons_append, List.nil_append, decodeOnto,
      value?_digit (x.toNat / 16) (by omega), value?_digit (x.toNat % 16) (by omega), ih,
      show x.toNat / 16 * 16 + x.toNat % 16 = x.toNat by omega, UInt8.ofNat_toNat]
    simp

/-- Bytes are read back from their digits. -/
@[simp]
theorem decode?_encode (b : Bytes) : decode? (encode b) = some b := by
  simp [decode?, encode, decodeOnto_encode]

/-- Some bytes have some digits. -/
theorem encode_ne_empty {b : Bytes} (h : b ≠ []) : encode b ≠ "" := by
  intro empty
  have read := decode?_encode b
  rw [empty] at read
  exact h (Option.some.inj read).symm

/-- Bytes are written in digits only. -/
theorem isDigit_of_mem_encode {b : Bytes} {c : Char} (mem : c ∈ (encode b).toList) :
    isDigit c = true := by
  have written : ∀ n < 16, isDigit (digit n) = true := by decide
  rw [encode, String.toList_ofList] at mem
  obtain ⟨x, _, mem⟩ := List.mem_flatMap.mp mem
  have bound : x.toNat < 256 := x.toNat_lt_size
  simp only [encodeByte, List.mem_cons, List.not_mem_nil, or_false] at mem
  rcases mem with rfl | rfl
  · exact written _ (by omega)
  · exact written _ (by omega)

end SealedMail.Hex
