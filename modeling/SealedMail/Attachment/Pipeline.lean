import SealedMail.Attachment.Concat
import SealedMail.Attachment.Splitter
import SealedMail.Compression.Stream
import SealedMail.Limits

/-!
# Receiving attachments

The ciphertext of all attachments comes in pieces and is kept, up to a limit. When it is complete,
it is decrypted, expanded, and split over the sinks of the attachments. Without ciphertext there is
nothing to decrypt.
-/

namespace SealedMail

/-- Attachments that are being received. -/
structure Pipeline (κ : Type) where
  key : SymmetricKey
  mode : Compression
  chunkSize : Nat
  limit : Nat
  splitter : Splitter κ
  /-- How many bytes came, and the pieces that were kept, the last one first. -/
  input : Nat × List Bytes

namespace Pipeline

def start {κ : Type} (key : SymmetricKey) (mode : Compression) (splitter : Splitter κ)
    (limits : Limits) (chunkSize : Nat) : Pipeline κ :=
  ⟨key, mode, chunkSize, limits.attachments, splitter, 0, []⟩

def write {κ : Type} (b : Bytes) : MailM (Pipeline κ) Unit := fun pipeline =>
  let (result, input) := (Sink.buffer.capped pipeline.limit).write b pipeline.input
  (result, { pipeline with input })

def ciphertext {κ : Type} (pipeline : Pipeline κ) : Bytes := pipeline.input.2.reverse.flatten

variable {σ κ : Type} (factory : SinkFactory σ κ)

/-- Decrypts and expands the ciphertext, and splits what it gives. -/
def distribute (pipeline : Pipeline κ) : MailM (Splitter κ × σ) Unit := do
  unless pipeline.ciphertext.isEmpty do
    let stream ← MailM.ofExcept (Attachments.decrypt pipeline.key pipeline.ciphertext)
    pipeline.mode.decompressTo pipeline.chunkSize stream (Splitter.write factory)

def finish (pipeline : Pipeline κ) : MailM σ Unit := fun state =>
  match distribute factory pipeline (pipeline.splitter, state) with
  | (.error e, _, state) => (.error e, state)
  | (.ok (), splitter, state) => splitter.close factory state

/-- Delivers the attachments of a ciphertext that comes in these pieces. -/
def receive (pipeline : Pipeline κ) : List Bytes → MailM σ Unit
  | [] => pipeline.finish factory
  | piece :: rest =>
    match write piece pipeline with
    | (.error e, _) => throw e
    | (.ok (), pipeline) => pipeline.receive rest

end Pipeline

/-- Receives the attachments of an index, whose ciphertext comes in these pieces. -/
def Attachments.receive {σ κ : Type} (factory : SinkFactory σ κ) (slots : List Slot)
    (key : SymmetricKey) (mode : Compression) (limits : Limits) (chunkSize : Nat)
    (pieces : List Bytes) : MailM σ Unit := do
  let splitter ← Splitter.start factory slots
  (Pipeline.start key mode splitter limits chunkSize).receive factory pieces

end SealedMail
