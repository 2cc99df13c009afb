import SealedMail.Json.Numeral

/-!
# JSON documents

The syntax of a JSON text, before any of it is given a meaning: escapes in strings stay escapes,
numbers stay numerals, and an object keeps its fields in the order and number in which they are
written. What a reader skips need only be a document; what it uses must also have a value
(`SealedMail.Json.Reader`).
-/

namespace SealedMail.Json

/-- One element of a string literal: a character, or four hexadecimal digits after a backslash and
the letter u. -/
inductive TextUnit where
  | plain (c : Char)
  | escape (unit : Nat)
  deriving DecidableEq, Repr

/-- A JSON text as written. -/
inductive Document where
  | null
  | bool (b : Bool)
  | number (n : Numeral)
  | string (units : List TextUnit)
  | array (items : List Document)
  | object (fields : List (List TextUnit × Document))

namespace Document

def isBlank (c : Char) : Bool := c = ' ' || c = '\t' || c = '\n' || c = '\r'

def skipBlank (cs : List Char) : List Char := cs.dropWhile isBlank

def hexValue? (c : Char) : Option Nat :=
  if '0' ≤ c ∧ c ≤ '9' then some (c.toNat - '0'.toNat)
  else if 'a' ≤ c ∧ c ≤ 'f' then some (c.toNat - 'a'.toNat + 10)
  else if 'A' ≤ c ∧ c ≤ 'F' then some (c.toNat - 'A'.toNat + 10)
  else none

def hexUnit? (a b c d : Char) : Option Nat := do
  let a ← hexValue? a
  let b ← hexValue? b
  let c ← hexValue? c
  let d ← hexValue? d
  some (a * 4096 + b * 256 + c * 16 + d)

/-- The character that a backslash and the given letter stand for. -/
def simpleEscape? : Char → Option Char
  | '"' => some '"'
  | '\\' => some '\\'
  | '/' => some '/'
  | 'b' => some '\x08'
  | 'f' => some '\x0c'
  | 'n' => some '\n'
  | 'r' => some '\r'
  | 't' => some '\t'
  | _ => none

/-- The rest of a string literal after its opening quote, with what follows the closing quote; the
elements in `done` come first, in reverse. -/
def literal : List Char → List TextUnit → Option (List TextUnit × List Char)
  | '"' :: rest, done => some (done.reverse, rest)
  | '\\' :: 'u' :: a :: b :: c :: d :: rest, done =>
    match hexUnit? a b c d with
    | some unit => literal rest (.escape unit :: done)
    | none => none
  -- the letter u without four digits is none of the simple escapes
  | '\\' :: c :: rest, done =>
    match simpleEscape? c with
    | some c => literal rest (.plain c :: done)
    | none => none
  | c :: rest, done => if c.toNat < 0x20 then none else literal rest (.plain c :: done)
  | [], _ => none

/-- A non-empty run of digits and what follows it. -/
def digits? (cs : List Char) : Option (List Char × List Char) :=
  let run := cs.takeWhile Char.isDigit
  if run.isEmpty then none else some (run, cs.dropWhile Char.isDigit)

/-- The fraction of a numeral, if a point follows; a point without digits is an error. -/
def fraction : List Char → Option (Option (List Char) × List Char)
  | '.' :: rest => (digits? rest).map fun (run, rest) => (some run, rest)
  | cs => some (none, cs)

def exponentSign : List Char → Bool × List Char
  | '+' :: rest => (false, rest)
  | '-' :: rest => (true, rest)
  | cs => (false, cs)

/-- The exponent of a numeral, if the letter e follows; the letter without digits is an error. -/
def exponent : List Char → Option (Option Exponent × List Char)
  | 'e' :: rest | 'E' :: rest =>
    let (negative, rest) := exponentSign rest
    (digits? rest).map fun (run, rest) => (some ⟨negative, run⟩, rest)
  | cs => some (none, cs)

/-- A numeral and what follows it. Only the number zero starts with the digit 0. -/
def numeral (cs : List Char) : Option (Numeral × List Char) := do
  let (negative, cs) := match cs with
    | '-' :: rest => (true, rest)
    | cs => (false, cs)
  let (whole, cs) ← digits? cs
  if whole.head? = some '0' ∧ whole ≠ ['0'] then none
  else
    let (part, cs) ← fraction cs
    let (power, cs) ← exponent cs
    some (⟨negative, whole, part, power⟩, cs)

mutual

/-- A document after optional blanks, and what follows it. -/
def document : Nat → List Char → Option (Document × List Char)
  | 0, _ => none
  | fuel + 1, cs =>
    match skipBlank cs with
    | 'n' :: 'u' :: 'l' :: 'l' :: rest => some (.null, rest)
    | 't' :: 'r' :: 'u' :: 'e' :: rest => some (.bool true, rest)
    | 'f' :: 'a' :: 'l' :: 's' :: 'e' :: rest => some (.bool false, rest)
    | '"' :: rest => (literal rest []).map fun (units, rest) => (.string units, rest)
    | '[' :: rest =>
      match skipBlank rest with
      | ']' :: rest => some (.array [], rest)
      | rest => items fuel rest []
    | '{' :: rest =>
      match skipBlank rest with
      | '}' :: rest => some (.object [], rest)
      | rest => fields fuel rest []
    | cs => (numeral cs).map fun (n, rest) => (.number n, rest)

/-- The rest of an array from an item on; the items in `done` come first, in reverse. -/
def items : Nat → List Char → List Document → Option (Document × List Char)
  | 0, _, _ => none
  | fuel + 1, cs, done =>
    match document fuel cs with
    | none => none
    | some (item, rest) =>
      match skipBlank rest with
      | ',' :: rest => items fuel rest (item :: done)
      | ']' :: rest => some (.array (item :: done).reverse, rest)
      | _ => none

/-- The rest of an object from a field on; the fields in `done` come first, in reverse. -/
def fields : Nat → List Char → List (List TextUnit × Document) → Option (Document × List Char)
  | 0, _, _ => none
  | fuel + 1, cs, done =>
    match skipBlank cs with
    | '"' :: rest =>
      match literal rest [] with
      | none => none
      | some (name, rest) =>
        match skipBlank rest with
        | ':' :: rest =>
          match document fuel rest with
          | none => none
          | some (item, rest) =>
            match skipBlank rest with
            | ',' :: rest => fields fuel rest ((name, item) :: done)
            | '}' :: rest => some (.object ((name, item) :: done).reverse, rest)
            | _ => none
        | _ => none
    | _ => none

end

/-- The document that a text is, if it is one. Every step into a document and every item costs at
least one character, so twice the length of the text is enough fuel. -/
def ofChars? (cs : List Char) : Option Document :=
  match document (2 * cs.length + 2) cs with
  | some (doc, rest) => if (skipBlank rest).isEmpty then some doc else none
  | none => none

def ofString? (text : String) : Option Document := ofChars? text.toList

end Document

end SealedMail.Json
