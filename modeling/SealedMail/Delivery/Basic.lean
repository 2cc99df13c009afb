import SealedMail.Address.Basic
import SealedMail.DateTime.Basic

/-!
# Deliveries

How far a message has come on its way to each recipient, and the order of such records: those
without a date first, then by date, and by recipient where dates agree. Dates count as moments,
whatever their offset, so two records that the order cannot tell apart are the same record.
-/

namespace SealedMail

/-- Why a message could not be delivered. -/
inductive DeliveryReason where
  | unknown
  | doesntExist
  | tooLarge
  | canceled
  deriving DecidableEq, Repr

def DeliveryReason.name : DeliveryReason → String
  | .unknown => "unknown"
  | .doesntExist => "doesnt_exist"
  | .tooLarge => "too_large"
  | .canceled => "canceled"

def DeliveryReason.ofName? : String → Option DeliveryReason
  | "unknown" => some .unknown
  | "doesnt_exist" => some .doesntExist
  | "too_large" => some .tooLarge
  | "canceled" => some .canceled
  | _ => none

/-- A reason is read back from its name. -/
theorem DeliveryReason.ofName?_name (reason : DeliveryReason) :
    ofName? reason.name = some reason := by
  cases reason <;> rfl

/-- The claim of one device on a message that is still to be sent. -/
structure DeliveryLock where
  holder : String
  expires : DateTime
  deriving DecidableEq

/-- How far a message has come. -/
inductive DeliveryState where
  | unsent (lock : Option DeliveryLock)
  | delivered (date : DateTime)
  | failed (date : DateTime) (reason : DeliveryReason)
  deriving DecidableEq

/-- How far a message has come on its way to one recipient. -/
structure Delivery where
  recipient : Address
  state : DeliveryState
  deriving DecidableEq

namespace DeliveryState

def name : DeliveryState → String
  | .unsent _ => "unsent"
  | .delivered _ => "delivered"
  | .failed _ _ => "failed"

def date? : DeliveryState → Option DateTime
  | .unsent _ => none
  | .delivered date => some date
  | .failed date _ => some date

def reason? : DeliveryState → Option DeliveryReason
  | .failed _ reason => some reason
  | _ => none

def lock? : DeliveryState → Option DeliveryLock
  | .unsent lock => lock
  | _ => none

end DeliveryState

def compareOption {α : Type} (compare : α → α → Ordering) : Option α → Option α → Ordering
  | none, none => .eq
  | none, some _ => .lt
  | some _, none => .gt
  | some a, some b => compare a b

namespace DeliveryLock

/-- Claims are ordered by their holder, then by the moment they end. -/
def compare (a b : DeliveryLock) : Ordering :=
  (Ord.compare a.holder b.holder).then (a.expires.instant.compare b.expires.instant)

/-- The same claim, its end taken as a moment. -/
def Same (a b : DeliveryLock) : Prop :=
  a.holder = b.holder ∧ a.expires.instant = b.expires.instant

instance (a b : DeliveryLock) : Decidable (Same a b) := by unfold Same; infer_instance

end DeliveryLock

def DeliveryState.Same : DeliveryState → DeliveryState → Prop
  | .unsent none, .unsent none => True
  | .unsent (some a), .unsent (some b) => a.Same b
  | .delivered a, .delivered b => a.instant = b.instant
  | .failed a r, .failed b s => a.instant = b.instant ∧ r = s
  | _, _ => False

instance (a b : DeliveryState) : Decidable (a.Same b) := by
  unfold DeliveryState.Same
  split <;> infer_instance

namespace Delivery

def Same (a b : Delivery) : Prop := a.recipient = b.recipient ∧ a.state.Same b.state

instance (a b : Delivery) : Decidable (a.Same b) := by unfold Same; infer_instance

/-- The order of records: by date, then by recipient, then by what else tells states apart. -/
def compare (a b : Delivery) : Ordering :=
  (compareOption (fun a b => a.instant.compare b.instant) a.state.date? b.state.date?).then <|
  (Ord.compare a.recipient.text b.recipient.text).then <|
  (Ord.compare a.state.name b.state.name).then <|
  (compareOption (fun a b => Ord.compare a.name b.name) a.state.reason? b.state.reason?).then <|
  compareOption DeliveryLock.compare a.state.lock? b.state.lock?

/-- Records in order; those that the order cannot tell apart keep their places. -/
def sort (list : List Delivery) : List Delivery :=
  list.mergeSort fun a b => a.compare b != .gt

end Delivery

end SealedMail
