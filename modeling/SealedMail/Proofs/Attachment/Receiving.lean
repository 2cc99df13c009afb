import SealedMail.Attachment.Pipeline
import SealedMail.Proofs.Attachment.Splitter
import SealedMail.Proofs.Gzip.RoundTrip

/-!
# How receiving ends

A ciphertext that was received gives data in chunks, and then an end or an error
(`Attachments.expand`). The chunks go to the splitter, whatever comes after them. So receiving ends
as a run of the splitter over this data ends, or with the error that comes after it; in the latter
case the splitter is not closed, and a sink may still be open (`Attachments.receive_ends`).
-/

namespace SealedMail

variable {σ κ : Type}

/-! ## Data and how it ends -/

namespace Attachments

/-- The data that a ciphertext gives, in the chunks that are handed on, and how it ends. -/
def expand (key : SymmetricKey) (mode : Compression) (limits : Limits) (chunkSize : Nat)
    (ciphertext : Bytes) : List Bytes × Except MailError Unit :=
  if limits.attachments < ciphertext.length then ([], .error (.invalid .attachmentsTooLarge))
  -- without payloads nothing was compressed and nothing encrypted
  else if ciphertext.isEmpty then ([], .ok ())
  else
    match decrypt key ciphertext with
    | .error e => ([], .error e)
    | .ok stream =>
      let (chunks, complete) := mode.chunks chunkSize stream
      (chunks, if complete then .ok () else .error (.invalid .gzip))

variable {key : SymmetricKey} {mode : Compression} {limits : Limits} {chunkSize : Nat}
  {ciphertext : Bytes}

/-- Data that gives out or was never there is the fault of the message. -/
lemma isBadMessage_of_expand {e : MailError}
    (failed : (expand key mode limits chunkSize ciphertext).2 = .error e) :
    e.isBadMessage = true := by
  rw [expand] at failed
  split at failed
  next =>
    cases failed
    rfl
  next =>
    split at failed
    next => cases failed
    next =>
      rw [decrypt] at failed
      cases opened : key.decrypt SymmetricKey.attachmentsIv ciphertext with
      | error cause =>
        rw [opened] at failed
        cases failed
        rfl
      | ok stream =>
        rw [opened] at failed
        simp only [] at failed
        split at failed
        next => cases failed
        next =>
          cases failed
          rfl

/-- A ciphertext that can be decrypted and expanded gives all of the data. -/
lemma expand_of_decompress {stream data : Bytes} (fits : ciphertext.length ≤ limits.attachments)
    (nonempty : ciphertext ≠ []) (decrypted : decrypt key ciphertext = .ok stream)
    (decompressed : mode.decompress stream = .ok data) (chunkSize : Nat) :
    ∃ chunks, expand key mode limits chunkSize ciphertext = (chunks, .ok ()) ∧
      chunks.flatten = data := by
  obtain ⟨chunks, complete, whole⟩ := Compression.chunks_of_decompress decompressed chunkSize
  refine ⟨chunks, ?_, whole⟩
  rw [expand, if_neg (Nat.not_lt.mpr fits), if_neg (mt List.isEmpty_iff.mp nonempty), decrypted]
  simp only [complete, if_true]

end Attachments

/-! ## Handing the data on -/

namespace Splitter

variable {factory : SinkFactory σ κ}

/-- To write pieces one after the other is to write them until one fails. -/
lemma forM_write_eq (pieces : List Bytes) (number : Nat) (s : Splitter κ × σ) :
    pieces.forM (write factory) s =
      match writeAll factory pieces number s with
      | (none, s) => (.ok (), s)
      | (some (_, e), s) => (.error e, s) := by
  induction pieces generalizing number s with
  | nil => rfl
  | cons piece rest ih =>
    rw [writeAll, List.forM_eq_forM, List.forM_cons]
    cases first : write factory piece s with
    | mk result s' =>
      cases result with
      | error e => rw [MailM.bind_error first]
      | ok =>
        rw [MailM.bind_ok first, ← List.forM_eq_forM]
        exact ih _ _

/-- Pieces that are written one after the other are all taken, or the run stops at one. -/
lemma Stands.forM_outcome {slots : List Slot} {part : Bytes} {splitter : Splitter κ} {s s' : σ}
    (stands : Stands factory slots part s splitter s') (pieces : List Bytes) :
    ∃ result splitter' s'', pieces.forM (Splitter.write factory) (splitter, s') =
        (result, splitter', s'') ∧
      ((result = .ok () ∧ Stands factory slots (part ++ pieces.flatten) s splitter' s'') ∨
        ∃ more e, more <+: pieces.flatten ∧ result = .error e ∧
          Stops factory slots (part ++ more) e s s'') := by
  obtain ⟨splitter', s'', h⟩ := stands.writeAll_outcome pieces 0
  rw [forM_write_eq pieces 0]
  rcases h with ⟨writes, stands'⟩ | ⟨before, piece, after, e, rfl, _, writes, stops⟩
  · rw [writes]
    exact ⟨_, splitter', s'', rfl, .inl ⟨rfl, stands'⟩⟩
  · rw [writes]
    refine ⟨_, splitter', s'', rfl, .inr ⟨before.flatten ++ piece, e, ⟨after.flatten, ?_⟩, rfl, ?_⟩⟩
    · rw [List.append_assoc, List.flatten_append, List.flatten_cons]
    · rw [← List.append_assoc]
      exact stops

end Splitter

namespace Attachments

/-- How receiving ends, given the data and its end: as a run of the splitter over the data, or with
the error at the end of the data, when all of it was taken. -/
inductive Ends (factory : SinkFactory σ κ) (slots : List Slot)
    (expanded : List Bytes × Except MailError Unit) (s : σ) : Except MailError Unit → σ → Prop where
  | split {result s'} :
    Splitter.Ends factory slots expanded.1.flatten s result s' →
    Ends factory slots expanded s result s'
  | broken {splitter e s'} :
    expanded.2 = .error e →
    Splitter.Stands factory slots expanded.1.flatten s splitter s' →
    Ends factory slots expanded s (.error e) s'

variable {factory : SinkFactory σ κ} {slots : List Slot}
  {expanded : List Bytes × Except MailError Unit} {s s' : σ}

/-- However receiving ends, slots from the first one on have their slices of the data, and nothing
else has changed. If it succeeds these are all slots. -/
lemma Ends.exists_full (withholds : factory.Withholds) {result : Except MailError Unit}
    (ends : Ends factory slots expanded s result s') :
    ∃ full rest, slots = full ++ rest ∧ totalSize full ≤ expanded.1.flatten.length ∧
      factory.Delivers (slices full expanded.1.flatten) s s' ∧ (result = .ok () → rest = []) := by
  cases ends with
  | broken _ stands =>
    obtain ⟨full, rest, split, room, delivers⟩ := stands.deliversFirst withholds
    exact ⟨full, rest, split, room, delivers, nofun⟩
  | split ends => exact ends.exists_full withholds

end Attachments

namespace Pipeline

variable (factory : SinkFactory σ κ)

/-- A piece within the limit is kept. -/
lemma write_eq (pipeline : Pipeline κ) {piece : Bytes}
    (room : pipeline.input.1 + piece.length ≤ pipeline.limit) :
    write piece pipeline = (.ok (), { pipeline with
      input := (pipeline.input.1 + piece.length, piece :: pipeline.input.2) }) := by
  simp only [write, Sink.capped, if_neg (Nat.not_lt.mpr room)]
  rfl

/-- Pieces within the limit are kept. -/
lemma forM_write_eq (pipeline : Pipeline κ) {pieces : List Bytes}
    (fits : pipeline.input.1 + pieces.flatten.length ≤ pipeline.limit) :
    pieces.forM write pipeline = (.ok (), { pipeline with
      input := (pipeline.input.1 + pieces.flatten.length,
        pieces.reverse ++ pipeline.input.2) }) := by
  induction pieces generalizing pipeline with
  | nil => rfl
  | cons piece rest ih =>
    rw [List.flatten_cons, List.length_append, ← Nat.add_assoc] at fits ⊢
    rw [List.forM_eq_forM, List.forM_cons, MailM.bind_ok (pipeline.write_eq (by omega)),
      ← List.forM_eq_forM, ih _ fits, List.reverse_cons, List.append_assoc]
    rfl

/-- Pieces that were kept are what is received. -/
lemma receive_eq (pipeline : Pipeline κ) {pieces : List Bytes}
    (fits : pipeline.input.1 + pieces.flatten.length ≤ pipeline.limit) :
    pipeline.receive factory pieces =
      finish factory { pipeline with
        input := (pipeline.input.1 + pieces.flatten.length, pieces.reverse ++ pipeline.input.2) } := by
  induction pieces generalizing pipeline with
  | nil => rfl
  | cons piece rest ih =>
    rw [List.flatten_cons, List.length_append, ← Nat.add_assoc] at fits ⊢
    rw [receive, pipeline.write_eq (by omega)]
    simp only []
    rw [ih _ fits, List.reverse_cons, List.append_assoc]
    rfl

/-- Pieces beyond the limit are refused, and nothing of them is handed on. -/
lemma receive_error (pipeline : Pipeline κ) {pieces : List Bytes}
    (room : pipeline.input.1 ≤ pipeline.limit)
    (exceeds : pipeline.limit < pipeline.input.1 + pieces.flatten.length) (s : σ) :
    pipeline.receive factory pieces s = (.error (.invalid .attachmentsTooLarge), s) := by
  induction pieces generalizing pipeline with
  | nil => exact absurd exceeds (Nat.not_lt.mpr room)
  | cons piece rest ih =>
    rw [List.flatten_cons, List.length_append, ← Nat.add_assoc] at exceeds
    rw [receive, write, Sink.capped]
    rcases Nat.lt_or_ge pipeline.limit (pipeline.input.1 + piece.length) with long | short
    · simp only [if_pos long]
      rfl
    · simp only [if_neg (Nat.not_lt.mpr short)]
      exact ih _ short exceeds

/-- What was kept is expanded, and the data is handed on up to its end. -/
lemma distribute_eq (pipeline : Pipeline κ) {limits : Limits}
    (fits : pipeline.ciphertext.length ≤ limits.attachments) :
    let expanded := Attachments.expand pipeline.key pipeline.mode limits pipeline.chunkSize
      pipeline.ciphertext
    distribute factory pipeline =
      (do expanded.1.forM (Splitter.write factory)
          MailM.ofExcept expanded.2) := by
  intro expanded
  rw [distribute, show expanded = _ from Attachments.expand.eq_def _ _ _ _ _,
    if_neg (Nat.not_lt.mpr fits)]
  cases pipeline.ciphertext with
  | nil => rfl
  | cons x rest =>
    cases decrypted : Attachments.decrypt pipeline.key (x :: rest) with
    | error e => rfl
    | ok stream =>
      have opened : (MailM.ofExcept (.ok stream) : MailM (Splitter κ × σ) Bytes) = pure stream := rfl
      simp only [List.isEmpty_cons, Bool.false_eq_true, if_false, Compression.decompressTo_eq,
        opened, pure_bind]
      cases pipeline.mode.chunks pipeline.chunkSize stream with
      | mk chunks complete =>
        cases complete with
        | false => rfl
        | true => rfl

/-- A pipeline that is finished ends as the data of its ciphertext does. -/
lemma finish_ends (pipeline : Pipeline κ) {limits : Limits}
    (fits : pipeline.ciphertext.length ≤ limits.attachments) {slots : List Slot} {s s' : σ}
    (stands : Splitter.Stands factory slots [] s pipeline.splitter s') :
    ∃ result s'', pipeline.finish factory s' = (result, s'') ∧
      Attachments.Ends factory slots
        (Attachments.expand pipeline.key pipeline.mode limits pipeline.chunkSize pipeline.ciphertext)
        s result s'' := by
  rw [finish, distribute_eq factory pipeline fits]
  cases Attachments.expand pipeline.key pipeline.mode limits pipeline.chunkSize
    pipeline.ciphertext with
  | mk chunks ending =>
    obtain ⟨result, splitter, s'', writes, ⟨rfl, stands'⟩ | ⟨part, e, begins, rfl, stops⟩⟩ :=
      stands.forM_outcome chunks
    · rw [MailM.bind_ok writes, MailM.ofExcept_apply]
      cases ending with
      | error e => exact ⟨_, s'', rfl, .broken rfl stands'⟩
      | ok =>
        obtain ⟨result, s''', closed, ends⟩ := stands'.close_ends
        exact ⟨result, s''', closed, .split ends⟩
    · rw [MailM.bind_error writes]
      exact ⟨_, s'', rfl, .split (.stopped begins stops)⟩

end Pipeline

/-- Receiving ends as the ciphertext alone tells, in whatever pieces it comes, and whatever the
sinks are. -/
theorem Attachments.receive_ends (factory : SinkFactory σ κ) (slots : List Slot)
    (key : SymmetricKey) (mode : Compression) (limits : Limits) (chunkSize : Nat)
    (pieces : List Bytes) (s : σ) :
    ∃ result s', receive factory slots key mode limits chunkSize pieces s = (result, s') ∧
      Ends factory slots (expand key mode limits chunkSize pieces.flatten) s result s' := by
  rcases Splitter.start_outcome factory slots s with
    ⟨splitter, s₁, started, stands⟩ | ⟨e, s₁, started, stops⟩
  · rw [receive, MailM.bind_ok started]
    rcases Nat.lt_or_ge limits.attachments pieces.flatten.length with exceeds | fits
    · rw [expand, if_pos exceeds]
      refine ⟨_, s₁, ?_, .broken rfl stands⟩
      refine Pipeline.receive_error factory _ (Nat.zero_le _) ?_ s₁
      exact (Nat.zero_add _).symm ▸ exceeds
    · have kept := (Pipeline.start key mode splitter limits chunkSize).receive_eq factory
        (show 0 + pieces.flatten.length ≤ limits.attachments by omega)
      -- the pieces are kept in reverse
      have ciphertext : (pieces.reverse ++ []).reverse.flatten = pieces.flatten := by
        rw [List.append_nil, List.reverse_reverse]
      obtain ⟨result, s', finished, ends⟩ := Pipeline.finish_ends factory
        { Pipeline.start key mode splitter limits chunkSize with
          input := (0 + pieces.flatten.length, pieces.reverse ++ []) }
        (show _ ≤ limits.attachments from ciphertext ▸ fits) stands
      rw [kept]
      refine ⟨result, s', finished, ?_⟩
      rw [← ciphertext]
      exact ends
  · rw [receive, MailM.bind_error started]
    exact ⟨_, s₁, rfl, .split (.stopped List.nil_prefix stops)⟩

/-- What was received ended as the data of the ciphertext does. -/
lemma Attachments.ends_of_receive {factory : SinkFactory σ κ} {slots : List Slot}
    {key : SymmetricKey} {mode : Compression} {limits : Limits} {chunkSize : Nat}
    {pieces : List Bytes} {s s' : σ} {result : Except MailError Unit}
    (received : receive factory slots key mode limits chunkSize pieces s = (result, s')) :
    Ends factory slots (expand key mode limits chunkSize pieces.flatten) s result s' := by
  obtain ⟨_, _, received', ends⟩ := receive_ends factory slots key mode limits chunkSize pieces s
  rw [received] at received'
  cases received'
  exact ends

end SealedMail
