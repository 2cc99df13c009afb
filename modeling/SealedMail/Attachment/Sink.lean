import SealedMail.Bytes.Hex
import SealedMail.Digest.Sha512
import SealedMail.KeyRing
import SealedMail.Message

/-!
# Sinks

Where the payload of one attachment goes: a sink is written to and closed, and both change a state,
also where they fail. One sink can be put in front of another, to compare the digest of the payload
before the other is closed, or to bound the number of bytes that reach it.
-/

namespace SealedMail

/-- Something that takes bytes and is closed after them, with a state `σ`. -/
structure Sink (σ : Type) where
  write : Bytes → MailM σ Unit
  close : MailM σ Unit

namespace Sink

/-- The sink as one with a state of which its own is a part. -/
def within {σ τ : Type} (sink : Sink σ) (get : τ → σ) (set : σ → τ → τ) : Sink τ where
  write b state :=
    let (result, inner) := sink.write b (get state)
    (result, set inner state)
  close state :=
    let (result, inner) := sink.close (get state)
    (result, set inner state)

/-- A sink that keeps what is written to it, the last piece first. -/
def buffer : Sink (List Bytes) where
  write b := modify (b :: ·)
  close := pure ()

/-- At most `limit` bytes reach the sink. The bytes of a refused piece count, so that every later
piece is refused as well. -/
def capped {σ : Type} (limit : Nat) (sink : Sink σ) : Sink (Nat × σ) where
  write b := fun (written, state) =>
    let written := written + b.length
    if limit < written then (.error (.invalid .attachmentsTooLarge), written, state)
    else
      let (result, state) := sink.write b state
      (result, written, state)
  close := fun (written, state) =>
    let (result, state) := sink.close state
    (result, written, state)

end Sink

/-- What a sink is made for: the position of an attachment, and the size and digest of its
payload. -/
structure Slot where
  index : UInt32
  size : UInt32
  hash : String
  deriving DecidableEq

def AttachmentInfo.slot (info : AttachmentInfo) : Slot := ⟨info.index, info.size, info.hash⟩

/-- A payload on its way through a check of its digest. -/
structure DigestCheck where
  index : UInt32
  hash : String
  hasher : Sha512.Hasher

namespace DigestCheck

def start (slot : Slot) : DigestCheck := ⟨slot.index, slot.hash, Sha512.Hasher.start⟩

def update (check : DigestCheck) (b : Bytes) : DigestCheck :=
  { check with hasher := check.hasher.update b }

/-- The check without anything of a payload. -/
def restart (check : DigestCheck) : DigestCheck := { check with hasher := Sha512.Hasher.start }

/-- The digest of what has come is the expected one, in any letter case. -/
def isRight (check : DigestCheck) : Bool :=
  check.hash.toList.map Char.toLower == (Hex.encode check.hasher.finish).toList

end DigestCheck

namespace Sink

/-- Everything reaches the sink, but it is closed only if the digest is right. Closing takes the
digest, also where it is wrong: what comes later counts as another payload. -/
def checked {σ : Type} (sink : Sink σ) : Sink (DigestCheck × σ) where
  write b := fun (check, state) =>
    let (result, state) := sink.write b state
    -- the digest is of all that was written, also of what the sink refused
    (result, check.update b, state)
  close := fun (check, state) =>
    if check.isRight then
      let (result, state) := sink.close state
      (result, check.restart, state)
    else (.error (.integrity (.hashMismatch check.index)), check.restart, state)

end Sink

/-- Something that makes a sink for every attachment. Its sinks share the state `σ`, and each has a
state `κ` of its own. -/
structure SinkFactory (σ κ : Type) where
  make : Slot → MailM σ κ
  sink : Sink (κ × σ)

/-- Makes a sink, writes a payload to it that comes in these pieces, and closes it. -/
def SinkFactory.deliver {σ κ : Type} (factory : SinkFactory σ κ) (slot : Slot)
    (pieces : List Bytes) : MailM σ Unit := do
  let own ← factory.make slot
  fun state =>
    let (result, _, state) :=
      ((do pieces.forM factory.sink.write; factory.sink.close) : MailM (κ × σ) Unit) (own, state)
    (result, state)

/-- The factory with a check of the digest in front of every sink. -/
def SinkFactory.checked {σ κ : Type} (factory : SinkFactory σ κ) :
    SinkFactory σ (DigestCheck × κ) where
  make slot := do return (.start slot, ← factory.make slot)
  sink := factory.sink.checked.within
    (fun ((check, own), state) => (check, own, state))
    (fun (check, own, state) _ => ((check, own), state))

end SealedMail
