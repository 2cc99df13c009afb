import Mathlib.Data.List.Infix
import SealedMail.Attachment.Trace
import SealedMail.Proofs.Attachment.RoundTrip

/-!
# Pieces up to the limit

The ciphertext of all attachments comes in pieces, and is kept up to a limit. The counter counts the
bytes of refused pieces as well, so that a piece is taken exactly if everything up to it is within
the limit (`Sink.getElem?_attempts_capped`): behind a refused piece each one is refused, also an
empty one. What is kept is what the accepted pieces hold together, and within the limit
(`Sink.kept_capped`). A counter that stops at some number tells the same
(`Sink.attempts_cappedBelow`). All of this is about a buffer behind a cap; a pipeline does to its
input what such a buffer does (`Pipeline.attempts_write`), and when it is finished nothing counts but
the ciphertext (`Pipeline.finish_congr`).
-/

namespace SealedMail

variable {σ κ : Type}

/-! ## A buffer behind a cap -/

/-- The pieces whose writes succeeded. -/
def accepted (pieces : List Bytes) (results : List (Except MailError Unit)) : List Bytes :=
  ((pieces.zip results).filter fun written => written.2.isOk).map Prod.fst

namespace Sink

/-- The cap of a sink, with a counter that stops at `top`. -/
def cappedBelow (top limit : Nat) (sink : Sink σ) : Sink (Nat × σ) where
  write b := fun (written, state) =>
    let written := min (written + b.length) top
    if limit < written then (.error (.invalid .attachmentsTooLarge), written, state)
    else
      let (result, state) := sink.write b state
      (result, written, state)
  close := (sink.capped limit).close

section Write

variable {limit written : Nat} {b : Bytes}

/-- A piece beyond the limit is refused and counted. -/
lemma write_of_exceeds (exceeds : limit < written + b.length) (sink : Sink σ) (state : σ) :
    (sink.capped limit).write b (written, state) =
      (.error (.invalid .attachmentsTooLarge), written + b.length, state) := if_pos exceeds

/-- A piece within the limit is written and counted. -/
lemma write_of_room (room : written + b.length ≤ limit) (sink : Sink σ) (state : σ) :
    (sink.capped limit).write b (written, state) =
      ((sink.write b state).1, written + b.length, (sink.write b state).2) :=
  if_neg (Nat.not_lt.mpr room)

/-- Where the counter stops, or where the limit is, does not matter as long as one of them is not
reached. -/
lemma write_cappedBelow {top : Nat} (h : limit < top ∨ written + b.length ≤ top) (sink : Sink σ)
    (state : σ) :
    (sink.cappedBelow top limit).write b (min written top, state) =
      Prod.map id (Prod.map (min · top) id) ((sink.capped limit).write b (written, state)) := by
  have counted : min (min written top + b.length) top = min (written + b.length) top := by omega
  simp only [cappedBelow, counted]
  rcases Nat.lt_or_ge limit (written + b.length) with exceeds | room
  · rw [write_of_exceeds exceeds]
    exact if_pos (by omega)
  · rw [write_of_room room]
    exact if_neg (by omega)

end Write

/-- A piece is taken if everything up to it is within the limit, and refused otherwise. -/
lemma getElem?_attempts_capped (limit : Nat) (pieces : List Bytes) {k : Nat}
    (h : k < pieces.length) (written : Nat) (kept : List Bytes) :
    (MailM.attempts (buffer.capped limit).write pieces (written, kept)).1[k]? =
      some (if written + (pieces.take (k + 1)).flatten.length ≤ limit then .ok ()
        else .error (.invalid .attachmentsTooLarge)) := by
  -- the counter runs ahead with each piece, accepted or not
  induction pieces generalizing k written kept with
  | nil => cases h
  | cons piece rest ih =>
    have head (total : Nat) : written + (piece :: rest.take total).flatten.length =
        written + piece.length + (rest.take total).flatten.length := by
      rw [List.flatten_cons, List.length_append, Nat.add_assoc]
    rw [MailM.attempts, List.take_succ_cons, head]
    rcases Nat.lt_or_ge limit (written + piece.length) with exceeds | room
    · rw [write_of_exceeds exceeds]
      cases k with
      | zero =>
        rw [List.take_zero, List.flatten_nil, List.length_nil, Nat.add_zero,
          if_neg (Nat.not_le.mpr exceeds)]
        rfl
      | succ k => exact ih (Nat.lt_of_succ_lt_succ h) _ _
    · rw [write_of_room room]
      cases k with
      | zero =>
        rw [List.take_zero, List.flatten_nil, List.length_nil, Nat.add_zero, if_pos room]
        rfl
      | succ k => exact ih (Nat.lt_of_succ_lt_succ h) _ _

/-- What the accepted pieces hold is added to what was kept, and stays within the limit. -/
lemma kept_capped (limit : Nat) (pieces : List Bytes) {written : Nat} {kept : List Bytes}
    (counted : kept.flatten.length ≤ written) (fits : kept.flatten.length ≤ limit) :
    let outcome := MailM.attempts (buffer.capped limit).write pieces (written, kept)
    outcome.2.2 = (accepted pieces outcome.1).reverse ++ kept ∧
      outcome.2.2.flatten.length ≤ limit := by
  induction pieces generalizing written kept with
  | nil => exact ⟨rfl, fits⟩
  | cons piece rest ih =>
    rw [MailM.attempts]
    rcases Nat.lt_or_ge limit (written + piece.length) with exceeds | room
    · rw [write_of_exceeds exceeds]
      exact ih (Nat.le_add_right_of_le counted) fits
    · rw [write_of_room room]
      have length : (piece :: kept).flatten.length = piece.length + kept.flatten.length := by
        rw [List.flatten_cons, List.length_append]
      obtain ⟨added, within⟩ := ih
        (show (piece :: kept).flatten.length ≤ written + piece.length by omega) (by omega)
      refine ⟨added.trans ?_, within⟩
      exact (List.append_cons _ _ _).trans (congrArg (· ++ kept) (List.reverse_cons).symm)

/-- A counter that stops takes and keeps the same pieces, unless all of them go beyond where it
stops and the limit lies there as well. -/
lemma attempts_cappedBelow {top limit : Nat} {pieces : List Bytes} {written : Nat}
    (h : limit < top ∨ written + pieces.flatten.length ≤ top) (kept : List Bytes) :
    MailM.attempts (buffer.cappedBelow top limit).write pieces (min written top, kept) =
      Prod.map id (Prod.map (min · top) id)
        (MailM.attempts (buffer.capped limit).write pieces (written, kept)) := by
  induction pieces generalizing written kept with
  | nil => rfl
  | cons piece rest ih =>
    rw [List.flatten_cons, List.length_append] at h
    have first : limit < top ∨ written + piece.length ≤ top := by omega
    have later : limit < top ∨ written + piece.length + rest.flatten.length ≤ top := by omega
    rw [MailM.attempts, MailM.attempts, write_cappedBelow first]
    rcases Nat.lt_or_ge limit (written + piece.length) with exceeds | room
    · rw [write_of_exceeds exceeds]
      exact congrArg (Prod.map (List.cons _) id) (ih later kept)
    · rw [write_of_room room]
      exact congrArg (Prod.map (List.cons _) id) (ih later _)

end Sink

/-! ## A pipeline -/

namespace Pipeline

/-- Writing to a pipeline is writing to a buffer behind its limit. -/
lemma attempts_write (pipeline : Pipeline κ) (pieces : List Bytes) :
    let input := MailM.attempts (Sink.buffer.capped pipeline.limit).write pieces pipeline.input
    MailM.attempts write pieces pipeline = (input.1, { pipeline with input := input.2 }) := by
  induction pieces generalizing pipeline with
  | nil => rfl
  | cons piece rest ih =>
    rw [MailM.attempts]
    simp only [ih, MailM.attempts, write]
    rfl

/-- What comes of a pipeline depends on the ciphertext that was kept, and not on its pieces. -/
lemma finish_congr (factory : SinkFactory σ κ) (pipeline : Pipeline κ)
    {input input' : Nat × List Bytes} (same : input.2.reverse.flatten = input'.2.reverse.flatten) :
    finish factory { pipeline with input } = finish factory { pipeline with input := input' } := by
  have kept : ciphertext { pipeline with input } = ciphertext { pipeline with input := input' } := same
  have distributed : distribute factory { pipeline with input } =
      distribute factory { pipeline with input := input' } := by
    rw [distribute, kept]
    rfl
  funext s
  rw [finish, distributed]
  rfl

/-- Pieces within the limit are received together as they are received one by one. -/
lemma receive_flatten (factory : SinkFactory σ κ) (pipeline : Pipeline κ) {pieces : List Bytes}
    (fits : pipeline.input.1 + pieces.flatten.length ≤ pipeline.limit) :
    pipeline.receive factory [pieces.flatten] = pipeline.receive factory pieces := by
  have whole : [pieces.flatten].flatten = pieces.flatten := List.flatten_singleton
  rw [pipeline.receive_eq factory fits, pipeline.receive_eq factory (whole.symm ▸ fits)]
  apply finish_congr
  simp

/-- The pipeline after all pieces were taken is finished as if they had come at once. -/
lemma finish_of_attempts (factory : SinkFactory σ κ) (pipeline : Pipeline κ) {pieces : List Bytes}
    (fits : pipeline.input.1 + pieces.flatten.length ≤ pipeline.limit)
    (succeed : ∀ result ∈ (MailM.attempts write pieces pipeline).1, result = .ok ()) :
    (MailM.attempts write pieces pipeline).2.finish factory =
      pipeline.receive factory [pieces.flatten] := by
  have writes := (MailM.forM_of_attempts succeed).symm.trans (pipeline.forM_write_eq fits)
  rw [pipeline.receive_flatten factory fits, pipeline.receive_eq factory fits]
  exact congrArg (finish factory) (congrArg Prod.snd writes)

variable (key : SymmetricKey) (mode : Compression) (splitter : Splitter κ) (limits : Limits)
  (chunkSize : Nat)

/-- Each write succeeds if all that has come by then is within the limit. -/
lemma getElem?_attempts_start (pieces : List Bytes) {k : Nat} (h : k < pieces.length) :
    (MailM.attempts write pieces (start key mode splitter limits chunkSize)).1[k]? =
      some (if (pieces.take (k + 1)).flatten.length ≤ limits.attachments then .ok ()
        else .error (.invalid .attachmentsTooLarge)) := by
  have told := Sink.getElem?_attempts_capped limits.attachments pieces h 0 []
  rw [Nat.zero_add] at told
  rw [attempts_write]
  exact told

/-- If every write succeeds, everything together is within the limit. -/
lemma length_le_of_attempts {pieces : List Bytes}
    (succeed : ∀ result ∈ (MailM.attempts write pieces
      (start key mode splitter limits chunkSize)).1, result = .ok ()) :
    pieces.flatten.length ≤ limits.attachments := by
  cases pieces with
  | nil => exact Nat.zero_le _
  | cons piece rest =>
    have told := getElem?_attempts_start key mode splitter limits chunkSize (piece :: rest)
      (Nat.lt_succ_self rest.length)
    have last := succeed _ (List.mem_of_getElem? told)
    rw [← List.length_cons (a := piece), List.take_length] at last
    split at last
    next fits => exact fits
    next => cases last

/-- A ciphertext that comes in pieces, which are written also behind one that was refused. A piece
is taken exactly if all that came up to it, refused pieces as well, is within the limit; so behind a
refused piece every piece is refused, also an empty one. What is kept is what the accepted pieces
hold together, and never more than the limit. All of this is the same for a counter that stops at
some number, if the limit lies below it or not so many bytes come. If every piece was taken, the
pipeline is finished as if everything had come at once. -/
theorem pieces_within_limit (factory : SinkFactory σ κ) (pieces : List Bytes) :
    let pipeline := start key mode splitter limits chunkSize
    let outcome := MailM.attempts write pieces pipeline
    outcome.1.length = pieces.length ∧
      (∀ k < pieces.length, (outcome.1[k]? = some (.ok ()) ↔
        (pieces.take (k + 1)).flatten.length ≤ limits.attachments)) ∧
      (∀ j k, j < k → k < pieces.length → outcome.1[j]? ≠ some (.ok ()) →
        outcome.1[k]? = some (.error (.invalid .attachmentsTooLarge))) ∧
      outcome.2.ciphertext = (accepted pieces outcome.1).flatten ∧
      outcome.2.ciphertext.length ≤ limits.attachments ∧
      (∀ top, limits.attachments < top ∨ pieces.flatten.length ≤ top → ∃ counted,
        MailM.attempts (Sink.buffer.cappedBelow top limits.attachments).write pieces (0, []) =
          (outcome.1, counted, outcome.2.input.2)) ∧
      ((∀ result ∈ outcome.1, result = .ok ()) →
        outcome.2.finish factory = pipeline.receive factory [pieces.flatten]) := by
  intro pipeline outcome
  have told (k : Nat) (h : k < pieces.length) : outcome.1[k]? = _ :=
    getElem?_attempts_start key mode splitter limits chunkSize pieces h
  obtain ⟨input, hinput⟩ : ∃ input,
      input = MailM.attempts (Sink.buffer.capped limits.attachments).write pieces (0, []) := ⟨_, rfl⟩
  have split : outcome = (input.1, { pipeline with input := input.2 }) :=
    hinput ▸ pipeline.attempts_write pieces
  obtain ⟨kept, within⟩ := Sink.kept_capped limits.attachments pieces
    (show ([] : List Bytes).flatten.length ≤ 0 from Nat.le_refl 0) (Nat.zero_le _)
  rw [← hinput] at kept within
  have ciphertext : outcome.2.ciphertext = input.2.2.reverse.flatten := by rw [split]; rfl
  refine ⟨MailM.length_attempts _ _ _, fun k h => ?_, fun j k before h failed => ?_, ?_, ?_,
    fun top beyond => ?_, fun succeed => ?_⟩
  · rw [told k h, Option.some.injEq]
    by_cases fits : (pieces.take (k + 1)).flatten.length ≤ limits.attachments
    · rw [if_pos fits]
      exact ⟨fun _ => fits, fun _ => rfl⟩
    · rw [if_neg fits]
      exact ⟨nofun, fun fits' => absurd fits' fits⟩
  · rw [told j (Nat.lt_trans before h), ne_eq, Option.some.injEq] at failed
    -- everything up to the later piece begins with everything up to the refused one
    have begins : pieces.take (j + 1) <+: pieces.take (k + 1) :=
      List.take_prefix_take_left (Nat.succ_le_succ before.le)
    have exceeds : ¬ (pieces.take (k + 1)).flatten.length ≤ limits.attachments := fun fits =>
      failed (if_pos (begins.flatten.length_le.trans fits))
    rw [told k h, if_neg exceeds]
  · rw [ciphertext, kept, split, List.append_nil, List.reverse_reverse]
  · rw [ciphertext]
    simpa using within
  · rw [← Nat.zero_add pieces.flatten.length] at beyond
    have counted := Sink.attempts_cappedBelow beyond []
    rw [Nat.zero_min, ← hinput] at counted
    exact ⟨min input.2.1 top, by rw [counted, split]; rfl⟩
  · have fits := length_le_of_attempts key mode splitter limits chunkSize succeed
    exact pipeline.finish_of_attempts factory ((Nat.zero_add _).symm ▸ fits) succeed

/-- The ciphertext of a byte has 17 bytes. Under a limit of as many, one byte behind it is too much,
and nothing more is taken after that; in pieces it comes to the same as at once, and the byte is
delivered. -/
theorem pieces_within_limit_sealed :
    let slot : Slot := ⟨0, 1, ""⟩
    let key : SymmetricKey := ⟨List.replicate 32 0⟩
    let ciphertext := Gcm.encrypt key.bytes SymmetricKey.attachmentsIv [7]
    let pipeline := start key .none (⟨[], some 0, 1⟩ : Splitter UInt32) ⟨0, 0, 0, 17⟩ 1
    let factory := SinkFactory.recording fun _ => false
    let refused := MailM.attempts write [ciphertext, [0], []] pipeline
    let taken := MailM.attempts write [ciphertext.take 2, [], ciphertext.drop 2] pipeline
    (refused.1[1]? ≠ some (.ok ()) ∧
        refused.1[2]? = some (.error (.invalid .attachmentsTooLarge))) ∧
      (∀ result ∈ taken.1, result = .ok ()) ∧
      taken.2.finish factory = pipeline.receive factory [ciphertext] ∧
      ∃ s', taken.2.finish factory [.make slot] = (.ok (), s') ∧
        factory.Delivers [(slot, [7])] [] s' := by
  intro slot key ciphertext pipeline factory refused taken
  have size : ciphertext.length = 17 := Gcm.length_encrypt _ _ _
  have encrypted : key.encrypt SymmetricKey.attachmentsIv [7] = .ok ciphertext :=
    SymmetricKey.encrypt_eq (List.cons_ne_nil _ _) (by decide) rfl
  -- nothing else about the ciphertext matters, and nothing below may compute it
  clear_value ciphertext
  have whole : [ciphertext.take 2, [], ciphertext.drop 2].flatten = ciphertext := by
    rw [List.flatten_cons, List.flatten_cons, List.flatten_singleton, List.nil_append,
      List.take_append_drop]
  have single : [ciphertext].flatten = ciphertext := List.flatten_singleton
  obtain ⟨_, within, after, _⟩ := pieces_within_limit key .none
    (⟨[], some 0, 1⟩ : Splitter UInt32) ⟨0, 0, 0, 17⟩ 1 factory [ciphertext, [0], []]
  obtain ⟨counted, within', _, _, _, _, finished⟩ := pieces_within_limit key .none
    (⟨[], some 0, 1⟩ : Splitter UInt32) ⟨0, 0, 0, 17⟩ 1 factory
    [ciphertext.take 2, [], ciphertext.drop 2]
  have failed : refused.1[1]? ≠ some (.ok ()) := by
    intro ok
    have fits := (within 1 (show 1 < 3 by decide)).mp ok
    change (ciphertext ++ [0]).length ≤ 17 at fits
    rw [List.length_append, size] at fits
    exact absurd fits (by decide)
  have succeed : ∀ result ∈ taken.1, result = .ok () := by
    intro result mem
    obtain ⟨k, place⟩ := List.getElem?_of_mem mem
    have bound : k < 3 := Nat.lt_of_lt_of_eq (List.getElem?_eq_some_iff.mp place).1 counted
    have fits := (List.take_prefix (k + 1)
      [ciphertext.take 2, [], ciphertext.drop 2]).flatten.length_le
    rw [whole, size] at fits
    exact Option.some.inj (place.symm.trans ((within' k bound).mpr fits))
  have same := finished succeed
  rw [whole] at same
  have packs : Compression.none.Packs [7] [7] := .some (List.cons_ne_nil _ _) rfl
  have started : Splitter.start factory [slot] [] = (.ok ⟨[], some 0, 1⟩, [.make slot]) := rfl
  rw [← single] at encrypted
  have fits : [ciphertext].flatten.length ≤ (⟨0, 0, 0, 17⟩ : Limits).attachments := by
    rw [single, size]
  obtain ⟨s', received, delivers⟩ := Attachments.receive_ok
    (Splitter.recording_reliable.acceptsAll [slot] [7]) rfl packs encrypted fits 1 []
  rw [Attachments.receive, MailM.bind_ok started] at received
  refine ⟨⟨failed, after 1 2 (by decide) (show 2 < 3 by decide) failed⟩, succeed, same, s', ?_,
    delivers⟩
  rw [same]
  exact received

end Pipeline

end SealedMail
