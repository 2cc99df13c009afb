import SealedMail.Outgoing.Encoding
import SealedMail.Proofs.Gzip.RoundTrip
import SealedMail.Proofs.Results

/-!
# Packed messages

What is sent was packed by a compressor, and nothing is known of its bytes but that expanding gives
back what was packed (`Compression.Undoes`). A message that such a compressor packs has a body that
expands to its content, and attachments that are empty or expand to its attachments
(`EncodedMessage.of_packWith`). The compressor of this library is one of many.
-/

namespace SealedMail

namespace Compression

/-- Expanding undoes a compressor, wherever this does not fail. -/
def Undoes (mode : Compression) (pack : Bytes → Except MailError Bytes) : Prop :=
  ∀ {b packed : Bytes}, pack b = .ok packed → mode.decompress packed = .ok b

/-- How a stream of attachments is packed: not at all if it is empty, else as data that expands
to it. -/
inductive Packs (mode : Compression) : Bytes → Bytes → Prop
  | none : Packs mode [] []
  | some {stream packed : Bytes} : stream ≠ [] → mode.decompress packed = .ok stream →
      Packs mode stream packed

/-- Expanding undoes the compressor of its mode. -/
lemma undoes_compress (mode : Compression) : mode.Undoes fun b => .ok (mode.compress b) := by
  intro b packed made
  cases made
  exact mode.decompress_compress b

/-- No data expands to anything but no data. -/
lemma eq_nil_of_decompress_nil {mode : Compression} {b : Bytes}
    (expanded : mode.decompress [] = .ok b) : b = [] := by
  cases mode with
  | gzip => cases expanded
  | none => cases expanded; rfl

/-- Attachments are packed as no data only if there is nothing to pack. -/
lemma Packs.eq_nil_iff {mode : Compression} {stream packed : Bytes}
    (packs : mode.Packs stream packed) : packed = [] ↔ stream = [] := by
  cases packs with
  | none => exact Iff.rfl
  | some nonempty expanded =>
    refine ⟨?_, fun empty => absurd empty nonempty⟩
    rintro rfl
    exact eq_nil_of_decompress_nil expanded

end Compression

namespace EncodedMessage

variable {pack : Bytes → Except MailError Bytes} {message packed : EncodedMessage}

/-- The compressor of a mode packs a message in that mode. -/
lemma packWith_compress (mode : Compression) (message : EncodedMessage) :
    message.packWith (fun b => .ok (mode.compress b)) = .ok (message.compress mode) := by
  rw [packWith, compress]
  split <;> rfl

/-- A message is packed by packing its content and the attachments that it has. -/
lemma packWith_eq_ok :
    message.packWith pack = .ok packed ↔
      pack message.content = .ok packed.content ∧
        if message.attachments = [] then packed.attachments = []
        else pack message.attachments = .ok packed.attachments := by
  obtain ⟨content, attachments⟩ := packed
  cases stream : message.attachments with
  | nil => simp [packWith, stream]
  | cons x rest => simp [packWith, stream, bind_eq_ok]

/-- Packing fails where the compressor fails, on the content or on the attachments that there
are. -/
lemma packWith_eq_error {e : MailError} :
    message.packWith pack = .error e ↔
      pack message.content = .error e ∨
        (∃ content, pack message.content = .ok content) ∧ message.attachments ≠ [] ∧
          pack message.attachments = .error e := by
  rw [packWith]
  cases first : pack message.content with
  | error e' => simp [bind, Except.bind]
  | ok content =>
    cases stream : message.attachments with
    | nil => simp [bind, Except.bind, pure, Except.pure]
    | cons x rest =>
      cases second : pack (x :: rest) with
      | error e' => simp [bind, Except.bind]
      | ok attachments => simp [bind, Except.bind, pure, Except.pure]

/-- What was packed by a compressor that is undone is the message. -/
lemma of_packWith {mode : Compression} (undoes : mode.Undoes pack)
    (made : message.packWith pack = .ok packed) :
    mode.decompress packed.content = .ok message.content ∧
      mode.Packs message.attachments packed.attachments := by
  obtain ⟨content, attachments⟩ := packWith_eq_ok.mp made
  refine ⟨undoes content, ?_⟩
  split at attachments
  next empty =>
    rw [empty, attachments]
    apply Compression.Packs.none
  next nonempty =>
    apply Compression.Packs.some nonempty
    exact undoes attachments

end EncodedMessage

end SealedMail
