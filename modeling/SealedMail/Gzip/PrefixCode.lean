import SealedMail.Gzip.BitStream

/-!
# Prefix codes

A code gives each symbol a string of bits of which none begins another one. It is fixed by the
lengths of these strings: in the order of length, and of the symbols where lengths agree, each
string is the binary number after the one before. A code that has a string for every way to go on
is complete. Codes that are not complete are accepted only in two cases, and not everywhere: where
there is no string at all, and where the only string is a single bit.
-/

namespace SealedMail.Gzip

/-- A code as the tree of its decisions. -/
inductive PrefixCode where
  /-- No string goes this way. -/
  | empty
  | leaf (symbol : Nat)
  | branch (zero one : PrefixCode)

namespace PrefixCode

/-- The code with one more string, given from its first bit on. -/
def insert (n : Nat) : List Bool → PrefixCode → PrefixCode
  | [], _ => .leaf n
  | false :: path, .branch zero one => .branch (insert n path zero) one
  | true :: path, .branch zero one => .branch zero (insert n path one)
  | false :: path, _ => .branch (insert n path .empty) .empty
  | true :: path, _ => .branch .empty (insert n path .empty)

def path (width n : Nat) : List Bool := (List.range width).reverse.map fun i => n.testBit i

/-- The greatest length of a string. -/
def maxLength : Nat := 15

/-- The symbols in use with the lengths of their strings, in the order of these strings. -/
def inOrder (lengths : List Nat) : List (Nat × Nat) :=
  let used := lengths.zipIdx
  (List.range maxLength).flatMap fun length => used.filter fun entry => entry.1 = length + 1

/-- The strings of the symbols, from the given number of the given length on. -/
def strings (next width : Nat) : List (Nat × Nat) → List (List Bool × Nat)
  | [] => []
  | (length, symbol) :: rest =>
    -- the number after the string before, filled up with zeros to the new length
    let next := next <<< (length - width)
    (path length next, symbol) :: strings (next + 1) length rest

/-- How much of all strings of the greatest length is taken up by the code. -/
def extent (used : List (Nat × Nat)) : Nat :=
  used.foldl (fun sum entry => sum + 1 <<< (maxLength - entry.1)) 0

/-- The code with the given symbols, which come with the lengths of their strings in order. A bit
has to be read even to find that there is no string. -/
def ofSymbols (used : List (Nat × Nat)) : PrefixCode :=
  (strings 0 0 used).foldl (fun code entry => code.insert entry.2 entry.1) (.branch .empty .empty)

/-- The complete code in which each symbol has a string of the given length; 0 stands for no
string. -/
def complete? (lengths : List Nat) : Option PrefixCode :=
  let used := inOrder lengths
  if extent used = 1 <<< maxLength then some (ofSymbols used) else none

/-- The code in which each symbol has a string of the given length, also if there is no string or
only one of a single bit. -/
def ofLengths? (lengths : List Nat) : Option PrefixCode :=
  match inOrder lengths with
  | [] => some (ofSymbols [])
  | [(1, symbol)] => some (ofSymbols [(1, symbol)])
  | _ => complete? lengths

def read : PrefixCode → BitReader Nat
  | .empty => BitReader.corrupt
  | .leaf n => pure n
  | .branch zero one => do
    if ← BitReader.bit then one.read else zero.read

end PrefixCode

end SealedMail.Gzip
