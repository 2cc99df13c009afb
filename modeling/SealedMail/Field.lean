import SealedMail.Address.Basic
import SealedMail.Bytes.Base64
import SealedMail.Bytes.Hex
import SealedMail.DateTime.Rfc3339
import SealedMail.Error.Message
import SealedMail.Json.Basic

/-!
# Typed fields

The values of a JSON object as typed fields. A missing field reads as null. The readers with a
default give it for null and for nothing else: a value of another type is an error, never the
default.
-/

namespace SealedMail.Field

def bool : Json → Except FieldError Bool
  | .bool b => .ok b
  | _ => .error (.wrongType .bool)

/-- A truth value, or the default for null. -/
def boolOr (default : Bool) : Json → Except FieldError Bool
  | .null => .ok default
  | json => bool json

/-- An integer from 0 to `2 ^ 32 - 1`. -/
def unsigned : Json → Except FieldError UInt32
  | .integer (.ofNat n) => if n < UInt32.size then .ok (UInt32.ofNat n) else .error .outOfRange
  | _ => .error (.wrongType .unsigned)

/-- An integer from 0 to `2 ^ 32 - 1`, or the default for null. -/
def unsignedOr (default : UInt32) : Json → Except FieldError UInt32
  | .null => .ok default
  | json => unsigned json

def string (allowEmpty : Bool) : Json → Except FieldError String
  | .string s => if !allowEmpty && s.isEmpty then .error .emptyString else .ok s
  | _ => .error (.wrongType .string)

/-- A text, or the default for null; the empty text only where it is the default. -/
def stringOr (default : String) : Json → Except FieldError String
  | .null => .ok default
  | json => string default.isEmpty json

/-- A text of hexadecimal digits, in any number. -/
def hex (allowEmpty : Bool) (json : Json) : Except FieldError String := do
  let s ← string allowEmpty json
  if s.toList.all Hex.isDigit then .ok s else .error .invalidHex

def base64 (allowEmpty : Bool) (json : Json) : Except FieldError Bytes := do
  let s ← string allowEmpty json
  match Base64.decode? s with
  | some b => .ok b
  | none => .error .invalidBase64

def date (json : Json) : Except FieldError DateTime := do
  let s ← string false json
  match DateTime.ofString? s with
  | some d => .ok d
  | none => .error (.invalidDate s)

def addressOfString (s : String) : Except FieldError Address :=
  match Address.ofString? s with
  | some a => .ok a
  | none => .error (.invalidAddress s)

def address (json : Json) : Except FieldError Address := do
  addressOfString (← string false json)

/-- What was read from the field of the given name; a failure names the field. -/
def named {α : Type} (name : String) : Except FieldError α → Except MailError α
  | .ok a => .ok a
  | .error e => .error (.invalid (.field name e))

end SealedMail.Field
