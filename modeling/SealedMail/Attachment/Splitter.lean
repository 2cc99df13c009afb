import SealedMail.Attachment.Sink

/-!
# Splitting a stream

The stream of all payloads is cut at the sizes of the index, and each part goes to the sink of its
attachment. A sink is made when the one before it is full and closed, so at most one is open. An
attachment without payload that follows a full one is made and closed only when more bytes come or
the stream ends.
-/

namespace SealedMail

/-- Which sinks are still to be made, which one is open, and how many bytes it still takes. -/
structure Splitter (κ : Type) where
  pending : List Slot
  current : Option κ
  remaining : Nat

namespace Splitter

variable {σ κ : Type} (factory : SinkFactory σ κ)

def bytesExpected (splitter : Splitter κ) : Nat :=
  splitter.pending.foldl (fun expected slot => expected + slot.size.toNat) splitter.remaining

def start : List Slot → MailM σ (Splitter κ)
  | [] => pure ⟨[], none, 0⟩
  | slot :: pending => do return ⟨pending, some (← factory.make slot), slot.size.toNat⟩

/-- Writes to a sink, unless there is nothing to write. -/
def writeSome (sink : κ) (b : Bytes) (state : σ) : Except MailError Unit × κ × σ :=
  if b.isEmpty then (.ok (), sink, state) else factory.sink.write b (sink, state)

def closeSink (sink : κ) (state : σ) : Except MailError Unit × σ :=
  let (result, _, state) := factory.sink.close (sink, state)
  (result, state)

/-- Writes to the open sink what it still takes, closes it when it is full, and goes on with the
next one as long as there are bytes. -/
def fill : List Slot → κ → Nat → Bytes → σ → Except MailError Unit × Splitter κ × σ
  | pending, sink, remaining, b, state =>
    if b.length < remaining then
      match writeSome factory sink b state with
      | (.error e, sink, state) => (.error e, ⟨pending, some sink, remaining⟩, state)
      | (.ok (), sink, state) => (.ok (), ⟨pending, some sink, remaining - b.length⟩, state)
    else
      -- the open sink is full with the first `remaining` bytes
      match writeSome factory sink (b.take remaining) state with
      | (.error e, sink, state) => (.error e, ⟨pending, some sink, remaining⟩, state)
      | (.ok (), sink, state) =>
        match closeSink factory sink state with
        | (.error e, state) => (.error e, ⟨pending, none, 0⟩, state)
        | (.ok (), state) =>
          let rest := b.drop remaining
          match pending with
          | [] =>
            (if rest.isEmpty then .ok () else .error (.integrity .streamTooLong), ⟨[], none, 0⟩,
              state)
          | slot :: pending =>
            match factory.make slot state with
            | (.error e, state) => (.error e, ⟨pending, none, 0⟩, state)
            | (.ok sink, state) =>
              -- the next sink is open, even if no more bytes come to it
              if rest.isEmpty then (.ok (), ⟨pending, some sink, slot.size.toNat⟩, state)
              else fill pending sink slot.size.toNat rest state

def write (b : Bytes) : MailM (Splitter κ × σ) Unit := fun (splitter, state) =>
  if b.isEmpty then (.ok (), splitter, state)
  else
    match splitter.current with
    | none => (.error (.integrity .streamTooLong), splitter, state)
    | some sink => fill factory splitter.pending sink splitter.remaining b state

/-- Closes a full sink, and makes and closes the following ones that take no bytes. Tells whether
nothing is left to do. -/
def settle : List Slot → κ → σ → Except MailError Bool × σ
  | pending, sink, state =>
    match closeSink factory sink state with
    | (.error e, state) => (.error e, state)
    | (.ok (), state) =>
      match pending with
      | [] => (.ok true, state)
      | slot :: pending =>
        match factory.make slot state with
        | (.error e, state) => (.error e, state)
        | (.ok sink, state) =>
          if slot.size = 0 then settle pending sink state else (.ok false, state)

/-- Ends the stream, which must have filled every attachment. -/
def close (splitter : Splitter κ) : MailM σ Unit := do
  let isComplete ← match splitter.current, splitter.remaining with
    | some sink, 0 => settle factory splitter.pending sink
    | some _, _ => pure false
    -- no sink is open where there are no slots, after the last one, and after a failure
    | none, _ => pure splitter.pending.isEmpty
  unless isComplete do throw (.integrity .streamTooShort)

end Splitter

end SealedMail
