/-!
# Dates and times

A date and time as RFC 3339 writes it: the local calendar fields and the offset from UTC in
minutes. A second of 60 stands for a leap second and may follow any minute. Two such values can
name one moment, which is what their `instant` says; order and sameness of dates mean the instant.
-/

namespace SealedMail

def isLeapYear (year : Nat) : Bool := year % 4 = 0 && (year % 100 ≠ 0 || year % 400 = 0)

/-- The number of days in a month, counted from 1. -/
def daysInMonth (year month : Nat) : Nat :=
  if month = 2 then (if isLeapYear year then 29 else 28)
  else if month = 4 ∨ month = 6 ∨ month = 9 ∨ month = 11 then 30
  else 31

/-- The fields of a date and time, in their ranges or not. -/
structure DateFields where
  year : Nat
  month : Nat
  day : Nat
  hour : Nat
  minute : Nat
  second : Nat
  nanosecond : Nat
  /-- Minutes east of UTC. -/
  offset : Int
  deriving DecidableEq, Repr

/-- The day exists, and the time and the offset are in range. -/
def DateFields.Valid (d : DateFields) : Prop :=
  d.year ≤ 9999 ∧ 1 ≤ d.month ∧ d.month ≤ 12 ∧ 1 ≤ d.day ∧ d.day ≤ daysInMonth d.year d.month ∧
    d.hour ≤ 23 ∧ d.minute ≤ 59 ∧ d.second ≤ 60 ∧ d.nanosecond < 1000000000 ∧
    -1439 ≤ d.offset ∧ d.offset ≤ 1439

instance (d : DateFields) : Decidable d.Valid := by unfold DateFields.Valid; infer_instance

/-- A date and time whose fields are in their ranges. -/
structure DateTime extends DateFields where
  isValid : toDateFields.Valid
  deriving DecidableEq

/-- A moment: whole seconds since the start of year 0 in UTC, and nanoseconds into the second.
During a leap second the count of seconds stands still and the nanoseconds run on past 1000000000. -/
structure Instant where
  seconds : Int
  nanoseconds : Nat
  deriving DecidableEq, Repr

def Instant.compare (a b : Instant) : Ordering :=
  (Ord.compare a.seconds b.seconds).then (Ord.compare a.nanoseconds b.nanoseconds)

instance : Ord Instant := ⟨Instant.compare⟩

namespace DateTime

def daysBeforeYear (year : Nat) : Nat :=
  365 * year + (year + 3) / 4 - (year + 99) / 100 + (year + 399) / 400

def daysBeforeMonth (year month : Nat) : Nat :=
  (List.range (month - 1)).foldl (fun days m => days + daysInMonth year (m + 1)) 0

/-- The moment that a date and time names. -/
def instant (d : DateTime) : Instant :=
  let days := daysBeforeYear d.year + daysBeforeMonth d.year d.month + (d.day - 1)
  let localSeconds := ((days * 24 + d.hour) * 60 + d.minute) * 60 + min d.second 59
  ⟨localSeconds - d.offset * 60, d.nanosecond + (if d.second = 60 then 1000000000 else 0)⟩

end DateTime

end SealedMail
