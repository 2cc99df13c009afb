/-!
# Numerals

A number as a JSON text writes it: an optional sign, digits, and perhaps a fraction and an
exponent. Numbers that are not integers of 64 bits are only ever checked for their size, so this
module says which of them fit into a binary64 float when their first digits, as many as 64 bits
hold, are multiplied by the power of ten that puts them in place.
-/

namespace SealedMail.Json

/-- The mark and digits after the letter of an exponent. -/
structure Exponent where
  negative : Bool
  digits : List Char
  deriving DecidableEq, Repr

/-- A number as written. -/
structure Numeral where
  negative : Bool
  whole : List Char
  fraction : Option (List Char)
  exponent : Option Exponent
  deriving DecidableEq, Repr

namespace Numeral

def ofDigits (digits : List Char) : Nat := Nat.ofDigitChars 10 digits 0

/-- Appends digits to `n` as long as the result stays below `2 ^ 64`; also says how many it took. -/
def gather (n taken : Nat) : List Char → Nat × Nat
  | [] => (n, taken)
  | c :: rest =>
    let next := n * 10 + (c.toNat - '0'.toNat)
    if next < UInt64.size then gather next (taken + 1) rest else (n, taken)

/-- The leading digits that 64 bits hold, and the power of ten that puts them in place. -/
def scaled (n : Numeral) : Nat × Int :=
  let (head, used) := gather 0 0 n.whole
  let (head, places) := gather head 0 (n.fraction.getD [])
  let shift : Int := match n.exponent with
    | none => 0
    | some e => if e.negative then -(ofDigits e.digits : Int) else ofDigits e.digits
  -- whole digits that were left out count as places, those of the fraction do not
  (head, (n.whole.length - used : Nat) - (places : Int) + shift)

/-- The number nearest to `n` that 53 binary digits and a power of two can write; a tie goes to
the even digit. -/
def roundBinary (n : Nat) : Nat :=
  if n < 0x20000000000000 then n
  else
    let unit := 1 <<< (n.log2 - 52)
    let quotient := n / unit
    let rest := n % unit
    if 2 * rest > unit ∨ (2 * rest = unit ∧ quotient % 2 = 1) then (quotient + 1) * unit
    else quotient * unit

/-- The least magnitude that rounds to infinity. -/
def infinity : Nat := 1 <<< 1024 - 1 <<< 970

def isFinite (n : Numeral) : Bool :=
  let (head, power) := n.scaled
  head == 0 || power < 0 ||
    -- both factors are rounded before they are multiplied
    (power ≤ 308 && roundBinary head * roundBinary (Nat.pow 10 power.toNat) < infinity)

/-- The value of a numeral without fraction and exponent, if it is an integer of 64 bits:
from `-2 ^ 63` to -1 with a sign, from 0 to `2 ^ 64 - 1` without. -/
def integer? (n : Numeral) : Option Int :=
  if n.fraction.isSome || n.exponent.isSome then none
  else
    let magnitude := ofDigits n.whole
    if n.negative then
      if 0 < magnitude ∧ magnitude ≤ UInt64.size / 2 then some (-(magnitude : Int)) else none
    else if magnitude < UInt64.size then some magnitude else none

def chars (n : Numeral) : List Char :=
  (if n.negative then ['-'] else []) ++ n.whole ++
    (match n.fraction with
      | none => []
      | some digits => '.' :: digits) ++
    (match n.exponent with
      | none => []
      | some e => 'e' :: (if e.negative then ['-'] else []) ++ e.digits)

end Numeral

end SealedMail.Json
