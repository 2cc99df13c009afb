import SealedMail.Delivery.Basic
import SealedMail.Field
import SealedMail.Json.Printer
import SealedMail.Json.Reader

/-!
# The state of a message

Whether a message was read and is done with, as the devices of one account tell each other. The
text of version 0 holds truth values, that of version 1 the numbers 0 and 1. A later version is
taken to be read and done. Deliveries are accepted when a state is written, but neither written nor
read.
-/

namespace SealedMail

/-- Whether a message was read and is done with. -/
structure MessageState where
  version : UInt32
  read : Bool
  done : Bool
  delivery : List Delivery
  deriving DecidableEq

namespace MessageState

def latestVersion : UInt32 := 1

/-- The state of a message that the user sent: nothing is left to do. -/
def selfSent : MessageState := ⟨latestVersion, true, true, []⟩

/-- The object in the text of a state; the empty text stands for one without fields. -/
def readObject (version : UInt32) (text : String) : Except MailError Json :=
  if text.isEmpty then .ok .null
  else
    match Json.ofString? text with
    | none => .error (.invalid (.metadata version .notJson))
    | some json =>
      if json.isObject then .ok json else .error (.invalid (.metadata version .notObject))

/-- The state that the text of a version describes. -/
def ofText (version : UInt32) (text : String) : Except MailError MessageState :=
  if version = 0 then do
    let json ← readObject version text
    let read ← Field.named "meta (version 0) read" (Field.boolOr false (json.field "read"))
    let done ← Field.named "meta (version 0) done" (Field.boolOr false (json.field "done"))
    return ⟨version, read, done, []⟩
  else if version = 1 then do
    let json ← readObject version text
    let read ← Field.named "meta (version 1) read" (Field.unsignedOr 0 (json.field "read"))
    let done ← Field.named "meta (version 1) done" (Field.unsignedOr 0 (json.field "done"))
    return ⟨version, read != 0, done != 0, []⟩
  else .ok ⟨version, true, true, []⟩

/-- The text of a state in the latest version; the deliveries are left out. -/
def toText (read done : Bool) (_delivery : List Delivery) : String :=
  Json.render (.ofFields [
    ("read", .integer read.toNat),
    ("done", .integer done.toNat)])

end MessageState

end SealedMail
