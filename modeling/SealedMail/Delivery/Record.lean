import SealedMail.Delivery.Basic
import SealedMail.Field

/-!
# Delivery objects

Deliveries as a JSON object: the address of each recipient names a record of how far the message
has come. Reading sorts the records; of two with one recipient the later is written.
-/

namespace SealedMail.Delivery

def readReason (word : String) : Except FieldError DeliveryReason :=
  match DeliveryReason.ofName? word with
  | some reason => .ok reason
  | none => .error (.unknownWord .deliveryReason word)

def readLock : Json → Except FieldError (Option DeliveryLock)
  | .null => .ok none
  | json => do
    let holder ← Field.string false (json.field "holder")
    let expires ← Field.date (json.field "expires")
    return some ⟨holder, expires⟩

def readState (record : Json) : Except FieldError DeliveryState := do
  let word ← Field.string false (record.field "state")
  if word = "unsent" then
    return .unsent (← readLock (record.field "lock"))
  else if word = "delivered" then
    return .delivered (← Field.date (record.field "date"))
  else if word = "failed" then
    let date ← Field.date (record.field "date")
    let reason ← readReason (← Field.string false (record.field "reason"))
    return .failed date reason
  else .error (.unknownWord .deliveryState word)

def ofRecord (recipient : String) (record : Json) : Except FieldError Delivery := do
  let address ← Field.addressOfString recipient
  return ⟨address, ← readState record⟩

/-- The delivery of a record in an object; a failure says that it is a record that is bad. -/
def readRecord (recipient : String) (record : Json) : Except MailError Delivery :=
  if record.isObject then
    match ofRecord recipient record with
    | .ok delivery => .ok delivery
    | .error cause => .error (.invalid (.delivery (.badRecord cause)))
  else .error (.invalid (.delivery .recordNotObject))

/-- The deliveries of an object, in order; null has none. -/
def ofJson : Json → Except MailError (List Delivery)
  | .null => .ok []
  | .object records => do
    let list ← records.mapM fun (recipient, record) => readRecord recipient record
    return sort list
  | _ => .error (.invalid (.delivery .notObject))

/-- What tells a state from others of its name. -/
def detailFields : DeliveryState → List (String × Json)
  | .unsent none => []
  | .unsent (some lock) =>
    [("lock", .ofFields [
      ("holder", .string lock.holder),
      ("expires", .string lock.expires.render)])]
  | .delivered date => [("date", .string date.render)]
  | .failed date reason => [("date", .string date.render), ("reason", .string reason.name)]

def recordJson (state : DeliveryState) : Json :=
  .ofFields (("state", .string state.name) :: detailFields state)

def toJson (list : List Delivery) : Json :=
  .ofFields (list.map fun delivery => (delivery.recipient.text, recordJson delivery.state))

end SealedMail.Delivery
