import SealedMail.Attachment.Sink

/-!
# Recording sinks

A factory that keeps a record of every call to it and to its sinks, and may refuse some of them. A
refused call is on record as well. What is done to sinks is what such a factory records.
-/

namespace SealedMail

/-- A call to a factory or to one of its sinks. -/
inductive SinkEvent where
  | make (slot : Slot)
  | write (index : UInt32) (b : Bytes)
  | close (index : UInt32)
  deriving DecidableEq

/-- The calls so far, the last one first. -/
abbrev SinkTrace := List SinkEvent

namespace SinkEvent

def name : SinkEvent → String
  | .make _ => "make"
  | .write _ _ => "write"
  | .close _ => "close"

def index : SinkEvent → UInt32
  | .make slot => slot.index
  | .write index _ => index
  | .close index => index

/-- Writes to one sink that follow each other, taken as one. -/
def joinWrites : List SinkEvent → List SinkEvent
  | [] => []
  | event :: rest =>
    match event, joinWrites rest with
    | .write i a, .write j b :: rest =>
      if i = j then .write i (a ++ b) :: rest else .write i a :: .write j b :: rest
    | event, rest => event :: rest

/-- Puts a call on record, and refuses it if it is one of those to refuse. -/
def record (refuses : SinkEvent → Bool) (event : SinkEvent) : MailM SinkTrace Unit := do
  modify (event :: ·)
  if refuses event then throw (.invalid (.refused s!"{event.name} refused"))

end SinkEvent

/-- A factory that does nothing but keep a record. Its sinks know their own positions. -/
def SinkFactory.recording (refuses : SinkEvent → Bool) : SinkFactory SinkTrace UInt32 where
  make slot := do
    SinkEvent.record refuses (.make slot)
    return slot.index
  sink := {
    write := fun b (index, trace) =>
      let (result, trace) := SinkEvent.record refuses (.write index b) trace
      (result, index, trace)
    close := fun (index, trace) =>
      let (result, trace) := SinkEvent.record refuses (.close index) trace
      (result, index, trace) }

end SealedMail
