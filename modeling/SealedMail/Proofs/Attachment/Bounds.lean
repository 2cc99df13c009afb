import Mathlib.Data.List.Infix
import SealedMail.Proofs.Attachment.Covering
import SealedMail.Proofs.Streaming
import SealedMail.Proofs.SymmetricKey

/-!
# How much is expanded

A small ciphertext may expand to any amount of data. The splitter takes no more than its slots take
together, and refuses the first chunk that goes beyond: so no more than one chunk is ever expanded
in vain (`Splitter.Stands.handed_le`). What the sinks themselves are handed stands in a record that
is kept of each (`SinkFactory.metered`), and no record is longer than its slot (`Bounded`), which is
an invariant of every relation that tells of sinks. Data that is too long is refused for that, or a
sink was refused before (`Splitter.Stops.cases`).
-/

namespace SealedMail

variable {σ κ : Type}

/-! ## What the splitter is handed -/

namespace Splitter

variable {factory : SinkFactory σ κ} {slots : List Slot} {part : Bytes}
  {splitter splitter' : Splitter κ} {s s' s'' : σ}

/-- Pieces that were all written are taken. -/
lemma Stands.of_forM (stands : Stands factory slots part s splitter s') {pieces : List Bytes}
    (run : pieces.forM (Splitter.write factory) (splitter, s') = (.ok (), splitter', s'')) :
    Stands factory slots (part ++ pieces.flatten) s splitter' s'' := by
  obtain ⟨result, _, _, run', ⟨rfl, stands'⟩ | ⟨_, e, _, rfl, _⟩⟩ := stands.forM_outcome pieces
  · cases run.symm.trans run'
    exact stands'
  · cases run.symm.trans run'

/-- The splitter is handed no more than its slots take together and one chunk. -/
lemma Stands.handed_le (stands : Stands factory slots [] s splitter s') (mode : Compression)
    (size : Nat) (stream : Bytes) :
    ∃ result handed splitter' s'',
      mode.decompressTo size stream (Splitter.write factory) (splitter, s') =
        (result, splitter', s'') ∧
      mode.decompressTo size stream (recorded (Splitter.write factory)) ([], splitter, s') =
        (result, handed, splitter', s'') ∧
      handed.flatten.length ≤ totalSize slots + max size 1 := by
  obtain ⟨result, handed, ⟨splitter', s''⟩, run, run', first, ends⟩ :=
    Compression.decompressTo_recorded mode size stream (Splitter.write factory) (splitter, s')
  refine ⟨result, handed, splitter', s'', run, run', ?_⟩
  obtain ⟨_, accepted, _⟩ | ⟨before, chunk, _, rfl, ⟨⟨_, _⟩, accepted, _⟩, _⟩ := ends
  · exact Nat.le_add_right_of_le (stands.of_forM accepted).length_le
  · have room := (stands.of_forM accepted).length_le
    have mem : chunk ∈ (mode.chunks size stream).1 :=
      first.subset (List.mem_append_right _ (List.mem_singleton_self chunk))
    have short := (Compression.mem_chunks mem).2
    rw [List.nil_append] at room
    rw [List.flatten_append, List.flatten_singleton, List.length_append]
    omega

/-- A run stops where the stream is too long for all slots, which were delivered, or where a sink is
refused and the slots before it were delivered. -/
lemma Stops.cases {e : MailError} (stops : Stops factory slots part e s s') :
    (e = .integrity .streamTooLong ∧ totalSize slots < part.length ∧
      factory.Delivers (slices slots part) s s') ∨
    ∃ full slot rest s'', slots = full ++ slot :: rest ∧ totalSize full ≤ part.length ∧
      factory.Delivers (slices full part) s s'' ∧
      factory.Refuses slot ((part.drop (totalSize full)).take slot.size.toNat) e s'' s' := by
  induction stops with
  | tooLong some => exact .inl ⟨rfl, List.length_pos_iff.mpr some, .nil⟩
  | @refused slot rest part e s s' refuses =>
    exact .inr ⟨[], slot, rest, s, rfl, Nat.zero_le _, .nil, refuses⟩
  | @filled first rest pieces part e s s₁ s' delivered size _ ih =>
    have length : (pieces.flatten ++ part).length = first.size.toNat + part.length := by
      rw [List.length_append, size]
    obtain ⟨rfl, long, delivers⟩ | ⟨full, slot, rest, s'', rfl, room, delivers, refuses⟩ := ih
    · refine .inl ⟨rfl, ?_, .cons_slices delivered size delivers⟩
      rw [length, totalSize_cons]
      exact Nat.add_lt_add_left long _
    · refine .inr ⟨first :: full, slot, rest, s'', rfl, ?_, .cons_slices delivered size delivers, ?_⟩
      · rw [length, totalSize_cons]
        exact Nat.add_le_add_left room _
      · rw [totalSize_cons, ← size, List.drop_length_add_append]
        exact refuses

end Splitter

/-! ## What the sinks are handed -/

/-- No sink was handed more than the size of its slot. -/
def Bounded (meter : List (Slot × Bytes)) : Prop :=
  ∀ part ∈ meter, part.2.length ≤ part.1.size.toNat

/-- A further record within its slot leaves all of them within their slots. -/
lemma Bounded.append {meter : List (Slot × Bytes)} (kept : Bounded meter) {slot : Slot}
    {content : Bytes} (room : content.length ≤ slot.size.toNat) :
    Bounded (meter ++ [(slot, content)]) :=
  List.forall_mem_append.mpr ⟨kept, List.forall_mem_singleton.mpr room⟩

namespace SinkFactory

/-- The factory with a record, for each sink that was made, of all that was handed to it, also of
what it refused. Each sink knows its place in the record. -/
def metered (factory : SinkFactory σ κ) : SinkFactory (List (Slot × Bytes) × σ) (Nat × κ) where
  make slot := fun (meter, s) =>
    match factory.make slot s with
    | (.error e, s) => (.error e, meter, s)
    | (.ok own, s) => (.ok (meter.length, own), meter ++ [(slot, [])], s)
  sink := {
    write := fun b ((place, own), meter, s) =>
      let (result, own, s) := factory.sink.write b (own, s)
      (result, (place, own), meter.modify place fun part => (part.1, part.2 ++ b), s)
    close := fun ((place, own), meter, s) =>
      let (result, own, s) := factory.sink.close (own, s)
      (result, (place, own), meter, s) }

variable {factory : SinkFactory σ κ}

/-- Sinks with a record do what they do without it. -/
lemma metered_covers : factory.metered.Covers factory Prod.snd Prod.snd where
  makes {slot t result t'} run := by
    obtain ⟨meter, s⟩ := t
    cases made : factory.make slot s with
    | mk result₁ s' =>
      simp only [metered, made] at run
      cases result₁ with
      | error e =>
        cases run
        rfl
      | ok own =>
        cases run
        rfl
  writes b := by
    rintro ⟨⟨place, own⟩, meter, s⟩ result t' run
    cases run
    rfl
  closes := by
    rintro ⟨⟨place, own⟩, meter, s⟩ result t' run
    cases run
    rfl

section Metered

variable {slot : Slot} {pieces : List Bytes} {content b : Bytes} {e : MailError}
  {result : Except MailError Unit} {own own' : Nat × κ} {t t' t'' : List (Slot × Bytes) × σ}

/-- Each sink that is made gets the next record, which is empty. -/
lemma of_make_metered (made : factory.metered.make slot t = (.ok own, t')) :
    own.1 = t.1.length ∧ t'.1 = t.1 ++ [(slot, [])] := by
  obtain ⟨meter, s⟩ := t
  cases inner : factory.make slot s with
  | mk result₁ s' =>
    simp only [metered, inner] at made
    cases result₁ with
    | error e => cases made
    | ok own =>
      cases made
      exact ⟨rfl, rfl⟩

/-- A sink that is not made gets no record. -/
lemma of_make_metered_error (made : factory.metered.make slot t = (.error e, t')) :
    t'.1 = t.1 := by
  obtain ⟨meter, s⟩ := t
  cases inner : factory.make slot s with
  | mk result₁ s' =>
    simp only [metered, inner] at made
    cases result₁ with
    | error e =>
      cases made
      rfl
    | ok own => cases made

/-- What is handed to the sink that was made last is added at the end of the record. -/
lemma of_write_metered {meter : List (Slot × Bytes)} (place : own.1 = meter.length)
    (last : t.1 = meter ++ [(slot, content)])
    (written : factory.metered.sink.write b (own, t) = (result, own', t')) :
    own'.1 = meter.length ∧ t'.1 = meter ++ [(slot, content ++ b)] := by
  cases written
  refine ⟨place, ?_⟩
  show t.1.modify own.1 _ = _
  rw [last, place, List.modify_eq_take_cons_drop (by simp)]
  simp

/-- Closing a sink leaves the records as they are. -/
lemma of_close_metered (closed : factory.metered.sink.close (own, t) = (result, own', t')) :
    t'.1 = t.1 := by
  cases closed
  rfl

/-- What an open sink was handed stands last in the record, which else has not changed. -/
lemma Begun.metered (begun : factory.metered.Begun slot pieces t own t') :
    own.1 = t.1.length ∧ t'.1 = t.1 ++ [(slot, pieces.flatten)] := by
  induction begun with
  | make made => exact of_make_metered made
  | write _ written ih =>
    rw [List.flatten_append, List.flatten_singleton]
    exact of_write_metered ih.1 ih.2 written

/-- Writing pieces that fit a slot leaves all records within their slots. -/
lemma Begun.bounded (begun : factory.metered.Begun slot pieces t own t') (kept : Bounded t.1)
    (room : pieces.flatten.length ≤ slot.size.toNat) : Bounded t'.1 := by
  rw [begun.metered.2]
  exact kept.append room

/-- Delivering a payload that fits its slot leaves all records within their slots. -/
lemma Delivered.bounded (delivered : factory.metered.Delivered slot pieces t t')
    (kept : Bounded t.1) (room : pieces.flatten.length ≤ slot.size.toNat) : Bounded t'.1 := by
  obtain ⟨own, t₁, own', begun, closed⟩ := delivered
  rw [of_close_metered closed]
  exact begun.bounded kept room

/-- A piece that is refused counts as well. -/
lemma Refuses.bounded (refuses : factory.metered.Refuses slot content e t t') (kept : Bounded t.1)
    (room : content.length ≤ slot.size.toNat) : Bounded t'.1 := by
  cases refuses with
  | make made =>
    rw [of_make_metered_error made]
    exact kept
  | write begun more written =>
    obtain ⟨place, last⟩ := begun.metered
    rw [(of_write_metered place last written).2]
    exact kept.append (more.length_le.trans room)
  | close begun whole full closed =>
    rw [of_close_metered closed]
    exact begun.bounded kept (whole ▸ room)

/-- Delivering payloads that fit leaves all records within their slots. -/
lemma Delivers.bounded {parts : List (Slot × Bytes)}
    (delivers : factory.metered.Delivers parts t t') (kept : Bounded t.1) (room : Bounded parts) :
    Bounded t'.1 := by
  induction delivers with
  | nil => exact kept
  | cons delivered _ ih =>
    obtain ⟨first, later⟩ := List.forall_mem_cons.mp room
    exact ih (delivered.bounded kept first) later

end Metered

end SinkFactory

namespace Splitter

variable {factory : SinkFactory σ κ} {slots : List Slot} {part stream : Bytes} {e : MailError}
  {splitter : Splitter (Nat × κ)} {result : Except MailError Unit}
  {t t' : List (Slot × Bytes) × σ}

/-- Wherever a run stands, all records are within their slots. -/
lemma Stands.bounded (stands : Stands factory.metered slots part t splitter t')
    (kept : Bounded t.1) : Bounded t'.1 := by
  induction stands with
  | finished => exact kept
  | filling begun room => exact begun.bounded kept room
  | filled delivered full _ ih => exact ih (delivered.bounded kept full.le)

/-- Where a run was cut short, all records are within their slots. -/
lemma CutShort.bounded (cutShort : CutShort factory.metered slots stream t t')
    (kept : Bounded t.1) : Bounded t'.1 := by
  induction cutShort with
  | filling begun short => exact begun.bounded kept short.le
  | filled delivered full _ ih => exact ih (delivered.bounded kept full.le)

/-- Where a run stopped, all records are within their slots. -/
lemma Stops.bounded (stops : Stops factory.metered slots part e t t') (kept : Bounded t.1) :
    Bounded t'.1 := by
  induction stops with
  | tooLong => exact kept
  | refused refuses => exact refuses.bounded kept (List.length_take_le _ _)
  | filled delivered full _ ih => exact ih (delivered.bounded kept full.le)

/-- However a run ends, all records are within their slots. -/
lemma Ends.bounded (ends : Ends factory.metered slots stream t result t') (kept : Bounded t.1) :
    Bounded t'.1 := by
  cases ends with
  | delivered whole delivers =>
    exact delivers.bounded kept fun part mem => (length_of_mem_slices whole.ge part mem).le
  | cutShort _ cutShort => exact cutShort.bounded kept
  | stopped _ stops => exact stops.bounded kept

end Splitter

/-- A ciphertext that can be decrypted is handed on in chunks. -/
lemma Pipeline.distribute_eq_decompressTo (factory : SinkFactory σ κ) (pipeline : Pipeline κ)
    {stream : Bytes} (nonempty : pipeline.ciphertext ≠ [])
    (decrypted : Attachments.decrypt pipeline.key pipeline.ciphertext = .ok stream) :
    pipeline.distribute factory =
      pipeline.mode.decompressTo pipeline.chunkSize stream (Splitter.write factory) := by
  have opened : (MailM.ofExcept (.ok stream) : MailM (Splitter κ × σ) Bytes) = pure stream := rfl
  simp [distribute, nonempty, decrypted, opened]

/-- The splitter is closed only after all has been handed on. -/
lemma Pipeline.finish_of_distribute {factory : SinkFactory σ κ} {pipeline : Pipeline κ}
    {result : Except MailError Unit} {splitter : Splitter κ} {s s' : σ}
    (run : pipeline.distribute factory (pipeline.splitter, s) = (result, splitter, s')) :
    pipeline.finish factory s = (MailM.ofExcept result >>= fun _ => splitter.close factory) s' := by
  cases result with
  | error e =>
    simp only [finish, run]
    rfl
  | ok _ =>
    simp only [finish, run]
    rfl

namespace Attachments

variable {factory : SinkFactory σ κ} {slots : List Slot}
  {expanded : List Bytes × Except MailError Unit} {result : Except MailError Unit}

/-- However receiving ends, all records are within their slots. -/
lemma Ends.bounded {t t' : List (Slot × Bytes) × σ}
    (ends : Ends factory.metered slots expanded t result t') (kept : Bounded t.1) :
    Bounded t'.1 := by
  cases ends with
  | split ends => exact ends.bounded kept
  | broken _ stands => exact stands.bounded kept

/-! ## Data that is too long -/

/-- A sink was refused something before all slots were full, and the slots before it had their
slices. -/
def SinkRefused (factory : SinkFactory σ κ) (slots : List Slot) (stream : Bytes) (e : MailError)
    (s s' : σ) : Prop :=
  ∃ full slot rest content s'', slots = full ++ slot :: rest ∧
    factory.Delivers (slices full stream) s s'' ∧
    content <+: (stream.drop (totalSize full)).take slot.size.toNat ∧
    factory.Refuses slot content e s'' s'

/-- The stream was refused as too long when all slots had their slices. -/
def FoundTooLong (factory : SinkFactory σ κ) (slots : List Slot) (stream : Bytes) (e : MailError)
    (s s' : σ) : Prop :=
  e = .integrity .streamTooLong ∧ totalSize slots < stream.length ∧
    factory.Delivers (slices slots stream) s s'

variable {s s' : σ}

/-- A run stops for a stream that is too long, or at a sink that refuses. -/
lemma of_stops {part stream : Bytes} {e : MailError} (begins : part <+: stream)
    (stops : Splitter.Stops factory slots part e s s') :
    FoundTooLong factory slots stream e s s' ∨ SinkRefused factory slots stream e s s' := by
  obtain ⟨more, rfl⟩ := begins
  obtain ⟨rfl, long, delivers⟩ | ⟨full, slot, rest, s'', rfl, room, delivers, refuses⟩ :=
    stops.cases
  · refine .inl ⟨rfl, ?_, ?_⟩
    · rw [List.length_append]
      omega
    · rw [slices_append long.le]
      exact delivers
  · refine .inr ⟨full, slot, rest, _, s'', rfl, ?_, ?_, refuses⟩
    · rw [slices_append room]
      exact delivers
    · rw [List.drop_append_of_le_length room]
      exact (List.prefix_append _ _).take _

variable {key : SymmetricKey} {mode : Compression} {limits : Limits} {chunkSize : Nat}
  {pieces : List Bytes} {stream : Bytes} {splitter splitter' : Splitter κ} {s₁ : σ}

/-- All of the data goes to the splitter, or handing it on fails before. -/
lemma decompressTo_ends (stands : Splitter.Stands factory slots [] s splitter s₁)
    (mode : Compression) (chunkSize : Nat) (stream : Bytes) :
    ∃ result splitter' s', mode.decompressTo chunkSize stream (Splitter.write factory)
        (splitter, s₁) = (result, splitter', s') ∧
      let data := (mode.chunks chunkSize stream).1.flatten
      (result = ((mode.decompress stream).map fun _ => ()) ∧ data.length ≤ totalSize slots) ∨
        ∃ e, result = .error e ∧
          (FoundTooLong factory slots data e s s' ∨ SinkRefused factory slots data e s s') := by
  obtain ⟨result, handed, ⟨splitter', s'⟩, run, _, first, ends⟩ :=
    mode.decompressTo_recorded chunkSize stream (Splitter.write factory) (splitter, s₁)
  refine ⟨result, splitter', s', run, ?_⟩
  obtain ⟨rfl, accepted, told⟩ | ⟨before, chunk, e, rfl, ⟨⟨_, _⟩, accepted, refused⟩, told⟩ := ends
  · exact .inl ⟨told, (stands.of_forM accepted).length_le⟩
  · refine .inr ⟨e, told, ?_⟩
    have outcome := (stands.of_forM accepted).write_outcome chunk
    rw [refused, List.nil_append] at outcome
    refine of_stops ?_ outcome
    have begins := first.flatten
    rw [List.flatten_append, List.flatten_singleton] at begins
    exact begins

/-- Receiving is handing the data on, and closing the splitter if this succeeds. -/
lemma receive_of_decompressTo
    (started : Splitter.start factory slots s = (.ok splitter, s₁))
    (fits : pieces.flatten.length ≤ limits.attachments) (nonempty : pieces.flatten ≠ [])
    (decrypted : decrypt key pieces.flatten = .ok stream)
    (run : mode.decompressTo chunkSize stream (Splitter.write factory) (splitter, s₁) =
      (result, splitter', s')) :
    receive factory slots key mode limits chunkSize pieces s =
      (MailM.ofExcept result >>= fun _ => splitter'.close factory) s' := by
  have kept := (Pipeline.start key mode splitter limits chunkSize).receive_eq factory
    (show 0 + pieces.flatten.length ≤ limits.attachments by omega)
  have ciphertext : (pieces.reverse ++ []).reverse.flatten = pieces.flatten := by
    rw [List.append_nil, List.reverse_reverse]
  rw [receive, MailM.bind_ok started, kept]
  apply Pipeline.finish_of_distribute
  rw [Pipeline.distribute_eq_decompressTo factory _ (ciphertext ▸ nonempty)
    (ciphertext ▸ decrypted)]
  exact run

/-- No data comes out of no ciphertext. -/
lemma ne_nil_of_decrypt {ciphertext data : Bytes} (decrypted : decrypt key ciphertext = .ok stream)
    (expanded : mode.decompress stream = .ok data) (some : 0 < data.length) : ciphertext ≠ [] := by
  rintro rfl
  cases decrypted
  cases mode with
  | gzip => cases expanded
  | none =>
    cases expanded
    cases some

/-- Receiving fails if the data is broken or too long. -/
lemma receive_fails (fits : pieces.flatten.length ≤ limits.attachments)
    (nonempty : pieces.flatten ≠ []) (decrypted : decrypt key pieces.flatten = .ok stream)
    (factory : SinkFactory σ κ) (slots : List Slot) (s : σ) :
    let data := (mode.chunks chunkSize stream).1.flatten
    (∃ cause, mode.decompress stream = .error cause) ∨ totalSize slots < data.length →
    ∃ e s', receive factory slots key mode limits chunkSize pieces s = (.error e, s') ∧
      (mode.decompress stream = .error e ∨ FoundTooLong factory slots data e s s' ∨
        SinkRefused factory slots data e s s') := by
  intro data doomed
  rcases Splitter.start_outcome factory slots s with
    ⟨splitter, s₁, started, stands⟩ | ⟨e, s₁, started, stops⟩
  · obtain ⟨result, splitter', s', run, ⟨rfl, room⟩ | ⟨e, rfl, ends⟩⟩ :=
      decompressTo_ends stands mode chunkSize stream
    · obtain ⟨cause, broken⟩ | long := doomed
      · rw [broken] at run
        exact ⟨cause, s', receive_of_decompressTo started fits nonempty decrypted run, .inl broken⟩
      · exact absurd room (Nat.not_le.mpr long)
    · exact ⟨e, s', receive_of_decompressTo started fits nonempty decrypted run, .inr ends⟩
  · refine ⟨e, s₁, ?_, .inr (of_stops List.nil_prefix stops)⟩
    rw [receive, MailM.bind_error started]

/-- However much a ciphertext expands to, and wherever chunks and slots end: receiving hands data to
the splitter and closes it, and the splitter is handed no more than its slots take together and one
chunk. No sink is handed more than the size of its slot, counting what is refused as well. If the
ciphertext expands to more than the slots take, receiving fails: as too long when all sinks have got
their slices, or because a sink was refused something before. If it cannot be expanded, receiving
fails for that unless it failed so before. -/
theorem expansion_bounded (factory : SinkFactory σ κ) (slots : List Slot) (key : SymmetricKey)
    (mode : Compression) (limits : Limits) (chunkSize : Nat) (pieces : List Bytes) (s : σ) :
    (∀ splitter s₁ stream, Splitter.start factory slots s = (.ok splitter, s₁) →
      ∃ result handed splitter' s',
        mode.decompressTo chunkSize stream (Splitter.write factory) (splitter, s₁) =
          (result, splitter', s') ∧
        mode.decompressTo chunkSize stream (recorded (Splitter.write factory))
          ([], splitter, s₁) = (result, handed, splitter', s') ∧
        handed.flatten.length ≤ totalSize slots + max chunkSize 1 ∧
        (pieces.flatten.length ≤ limits.attachments → pieces.flatten ≠ [] →
          decrypt key pieces.flatten = .ok stream →
          receive factory slots key mode limits chunkSize pieces s =
            (MailM.ofExcept result >>= fun _ => splitter'.close factory) s')) ∧
    (∃ result meter s',
      receive factory slots key mode limits chunkSize pieces s = (result, s') ∧
      receive factory.metered slots key mode limits chunkSize pieces ([], s) =
        (result, meter, s') ∧
      ∀ part ∈ meter, part.2.length ≤ part.1.size.toNat) ∧
    (∀ stream, pieces.flatten.length ≤ limits.attachments →
      decrypt key pieces.flatten = .ok stream →
      (∀ data, mode.decompress stream = .ok data → totalSize slots < data.length →
        ∃ e s', receive factory slots key mode limits chunkSize pieces s = (.error e, s') ∧
          (FoundTooLong factory slots data e s s' ∨ SinkRefused factory slots data e s s')) ∧
      ∀ cause, pieces.flatten ≠ [] → mode.decompress stream = .error cause →
        ∃ e s', receive factory slots key mode limits chunkSize pieces s = (.error e, s') ∧
          (e = cause ∨
            FoundTooLong factory slots (mode.chunks chunkSize stream).1.flatten e s s' ∨
            SinkRefused factory slots (mode.chunks chunkSize stream).1.flatten e s s')) := by
  refine ⟨fun splitter s₁ stream started => ?_, ?_, fun stream fits decrypted => ⟨?_, ?_⟩⟩
  · rcases Splitter.start_outcome factory slots s with
      ⟨_, _, started', stands⟩ | ⟨e, _, started', _⟩
    · cases started.symm.trans started'
      obtain ⟨result, handed, splitter', s', run, recorded, bound⟩ :=
        stands.handed_le mode chunkSize stream
      exact ⟨result, handed, splitter', s', run, recorded, bound, fun fits nonempty decrypted =>
        receive_of_decompressTo started fits nonempty decrypted run⟩
    · cases started.symm.trans started'
  · cases run : receive factory.metered slots key mode limits chunkSize pieces ([], s) with
    | mk result t =>
      have covers : factory.metered.Covers factory Prod.snd Prod.snd := SinkFactory.metered_covers
      have plain := covers.receive slots key mode limits chunkSize pieces _ _ _ run
      exact ⟨result, t.1, t.2, plain, rfl, (ends_of_receive run).bounded (List.forall_mem_nil _)⟩
  · intro data expanded long
    have whole : (mode.chunks chunkSize stream).1.flatten = data :=
      Compression.flatten_chunks expanded
    have nonempty : pieces.flatten ≠ [] :=
      ne_nil_of_decrypt decrypted expanded (Nat.zero_lt_of_lt long)
    obtain ⟨e, s', failed, broken | ends⟩ := receive_fails fits nonempty decrypted factory slots s
      (.inr (whole ▸ long))
    · cases expanded.symm.trans broken
    · rw [whole] at ends
      exact ⟨e, s', failed, ends⟩
  · intro cause nonempty broken
    obtain ⟨e, s', failed, broken' | ends⟩ := receive_fails fits nonempty decrypted factory slots s
      (.inl ⟨cause, broken⟩)
    · cases broken.symm.trans broken'
      exact ⟨cause, s', failed, .inl rfl⟩
    · exact ⟨e, s', failed, .inr ends⟩

/-- Two bytes for a slot of one byte, in chunks of one byte. -/
theorem expansion_bounded_too_long :
    let key : SymmetricKey := ⟨List.replicate 32 0⟩
    let factory := SinkFactory.recording fun _ => false
    let slot : Slot := ⟨0, 1, ""⟩
    ∃ ciphertext stream s',
      decrypt key ciphertext = .ok stream ∧
      receive factory [slot] key .gzip ⟨0, 0, 0, ciphertext.length⟩ 1 [ciphertext] [] =
        (.error (.integrity .streamTooLong), s') ∧
      factory.Delivers [(slot, [7])] [] s' ∧
      ∃ result handed splitter s'', Compression.gzip.decompressTo 1 stream
        (recorded (Splitter.write factory)) ([], ⟨[], some 0, 1⟩, [.make slot]) =
          (result, handed, splitter, s'') ∧ handed.flatten.length ≤ 2 := by
  intro key factory slot
  let stream := Compression.gzip.compress [7, 8]
  obtain ⟨ciphertext, encrypted, _⟩ :=
    SymmetricKey.exists_encrypt (show SymmetricKey.isIvLength
      SymmetricKey.attachmentsIv.length = true by decide)
      (show key.bytes.length = SymmetricKey.size from rfl) stream
  have opened : decrypt key ciphertext = .ok stream := by
    rw [decrypt, SymmetricKey.decrypt_of_encrypt encrypted]
  have expanded : Compression.gzip.decompress stream = .ok [7, 8] :=
    Compression.decompress_compress .gzip [7, 8]
  have whole : [ciphertext].flatten = ciphertext := List.flatten_singleton
  obtain ⟨handed, _, long⟩ := expansion_bounded factory [slot] key .gzip
    ⟨0, 0, 0, ciphertext.length⟩ 1 [ciphertext] []
  rw [whole] at long
  obtain ⟨tooLong, _⟩ := long stream (Nat.le_refl _) opened
  obtain ⟨e, s', failed, ⟨rfl, _, delivers⟩ | ⟨_, slot', _, content, _, _, _, begins, refuses⟩⟩ :=
    tooLong [7, 8] expanded (by decide)
  · obtain ⟨result, taken, splitter, s'', _, run, bound, _⟩ := handed _ _ stream rfl
    exact ⟨ciphertext, stream, s', opened, failed, delivers, result, taken, splitter, s'', run,
      bound⟩
  · have room := begins.length_le.trans (List.length_take_le _ _)
    exact absurd refuses ((Splitter.recording_reliable.accepts slot' content).not_refuses room
      (List.prefix_refl _))

end Attachments

end SealedMail
