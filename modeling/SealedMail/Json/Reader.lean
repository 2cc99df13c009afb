import SealedMail.Bytes.Basic
import SealedMail.Json.Basic
import SealedMail.Json.Document

/-!
# Reading JSON

The value of a JSON document. A document has one if its surrogate escapes come in pairs, its
numbers are in the range of a binary64 float, and it is nested at most 127 deep.
-/

namespace SealedMail.Json

def isHighSurrogate (unit : Nat) : Bool := 0xD800 ≤ unit && unit ≤ 0xDBFF

def isLowSurrogate (unit : Nat) : Bool := 0xDC00 ≤ unit && unit ≤ 0xDFFF

/-- The characters of a string literal, after those in `done` in reverse; a surrogate that is not
half of a pair has none. -/
def charsOnto : List TextUnit → List Char → Option (List Char)
  | [], done => some done.reverse
  | .plain c :: rest, done => charsOnto rest (c :: done)
  | .escape high :: .escape low :: rest, done =>
    -- a first half counts only with a second half right behind it
    if isHighSurrogate high then
      if isLowSurrogate low then
        charsOnto rest (Char.ofNat ((high - 0xD800) * 0x400 + (low - 0xDC00) + 0x10000) :: done)
      else none
    else if isLowSurrogate high then none
    else charsOnto (.escape low :: rest) (Char.ofNat high :: done)
  | .escape unit :: rest, done =>
    if isHighSurrogate unit || isLowSurrogate unit then none
    else charsOnto rest (Char.ofNat unit :: done)

def text? (units : List TextUnit) : Option String := (charsOnto units []).map String.ofList

def ofNumeral? (n : Numeral) : Option Json :=
  match n.integer? with
  | some i => some (.integer i)
  | none => if n.isFinite then some (.real n) else none

mutual

/-- The value of a document that may be nested `room` deep. -/
def ofDocument? (room : Nat) : Document → Option Json
  | .null => some .null
  | .bool b => some (.bool b)
  | .number n => ofNumeral? n
  | .string units => (text? units).map .string
  | .array items => if room = 0 then none else (ofItems? (room - 1) items).map .array
  | .object fields => if room = 0 then none else (ofPairs? (room - 1) fields).map ofFields

def ofItems? (room : Nat) : List Document → Option (List Json)
  | [] => some []
  | item :: rest =>
    match ofDocument? room item, ofItems? room rest with
    | some item, some rest => some (item :: rest)
    | _, _ => none

def ofPairs? (room : Nat) : List (List TextUnit × Document) → Option (List (String × Json))
  | [] => some []
  | (name, item) :: rest =>
    match text? name, ofDocument? room item, ofPairs? room rest with
    | some name, some item, some rest => some ((name, item) :: rest)
    | _, _, _ => none

end

/-- How deep a text may be nested. -/
def maxDepth : Nat := 127

def ofString? (text : String) : Option Json :=
  (Document.ofString? text).bind (ofDocument? maxDepth)

def ofBytes? (b : Bytes) : Option Json := b.toString?.bind ofString?

end SealedMail.Json
