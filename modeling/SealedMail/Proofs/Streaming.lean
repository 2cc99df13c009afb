import SealedMail.Proofs.Gzip.RoundTrip
import SealedMail.Proofs.Results

/-!
# Data handed on in chunks

Expanding data at once and handing it on in chunks come to the same, whatever the size of the
chunks (`Compression.streamed_as_expanded`). What a receiver is handed stands in a record that is
kept beside its state (`recorded`); it is the beginning of what every other receiver is handed, and
ends with the chunk that was refused. No chunk is empty or too long (`Gzip.Passes.mem_chunks`), and
the chunks are all of the data exactly if the data can be expanded at once
(`Compression.chunks_complete_iff`).
-/

namespace SealedMail

namespace Gzip

/-! ## Chunks -/

/-- Chunks that come in passes are neither empty nor too long. -/
lemma Passes.mem_chunks {size : Nat} {begun chunk : Bytes} {passes : Passes}
    (mem : chunk ∈ (passes.chunks size begun).1) : chunk ≠ [] ∧ chunk.length ≤ max size 1 := by
  induction passes generalizing begun with
  | finished fits => exact Bytes.of_mem_pieces mem
  | broken => cases mem
  | cutOff data => exact Bytes.of_mem_pieces (List.mem_of_mem_take mem)
  | pass data goesOn next ih =>
    simp only [chunks] at mem
    split at mem
    next => exact ih () mem
    next =>
      rcases List.mem_append.mp mem with mem | mem
      · exact Bytes.of_mem_pieces mem
      · exact ih () mem

/-- The chunks are all of the output only if the decoding is complete and its checksum follows. -/
lemma Decoding.yields_of_chunks {decoding : Decoding} {source : Source} {size : Nat} {pass : Pass}
    {begun : Bytes}
    (whole : ((decoding.passes source hasTrailer pass).chunks size begun).2 = true) :
    ∃ b rest, decoding.Yields b rest ∧ (pass.total.add b).trailer <+: rest := by
  induction decoding generalizing pass begun with
  | ended ending =>
    cases ending with
    | ok s =>
      have fits : hasTrailer pass.total s = true := by
        simpa [Decoding.passes, Passes.chunks] using whole
      exact ⟨[], s.rest, .ended, List.isPrefixOf_iff_prefix.mp fits⟩
    | error stop =>
      -- however the output ends, what is handed on is then marked as not being all
      have broken : ((Decoding.ended (.error stop)).passes source hasTrailer pass |>.chunks size
          begun).2 = false := by
        cases stop with
        | truncated =>
          rw [Decoding.passes]
          split <;> simp [Passes.chunks]
        | corrupt taken =>
          rw [Decoding.passes]
          split <;> simp [Passes.chunks]
      rw [broken] at whole
      cases whole
  | byte x next ih =>
    have later {following : Pass} {begun : Bytes}
        (total : following.total = pass.total.add [x.value])
        (whole : (((next ()).passes source hasTrailer following).chunks size begun).2 = true) :
        ∃ b rest, (Decoding.byte x next).Yields b rest ∧ (pass.total.add b).trailer <+: rest := by
      obtain ⟨b, rest, yields, fits⟩ := ih () whole
      rw [total, ← Checksum.add_append] at fits
      exact ⟨x.value :: b, rest, .byte yields, fits⟩
    rw [Decoding.passes] at whole
    split at whole
    next => exact later (pass.total_push x) whole
    next =>
      simp only [Passes.chunks] at whole
      split at whole
      next => exact later rfl whole
      next => exact later rfl whole

/-- Data that is handed on whole can be expanded. -/
lemma exists_decompress? {b : Bytes} {size : Nat}
    (whole : ((passes b).chunks size []).2 = true) : ∃ data, decompress? b = some data := by
  rw [passes] at whole
  cases read : Member.read? b with
  | none =>
    rw [read] at whole
    cases whole
  | some member =>
    rw [read] at whole
    obtain ⟨data, rest, yields, fits⟩ := Decoding.yields_of_chunks whole
    obtain ⟨s, complete, rfl⟩ := yields.complete?
    refine ⟨data, ?_⟩
    rw [decompress?, read]
    show (member.decoding.complete?.bind fun p => _) = some data
    rw [complete]
    exact if_pos (List.isPrefixOf_iff_prefix.mpr fits)

end Gzip

namespace Compression

variable {mode : Compression} {size : Nat} {b : Bytes}

/-- Chunks are neither empty nor too long. -/
lemma mem_chunks {chunk : Bytes} (mem : chunk ∈ (mode.chunks size b).1) :
    chunk ≠ [] ∧ chunk.length ≤ max size 1 := by
  cases mode with
  | gzip => exact Gzip.Passes.mem_chunks mem
  | none => exact Bytes.of_mem_pieces mem

/-- The chunks are all of the data exactly if the data can be expanded at once. -/
lemma chunks_complete_iff :
    (mode.chunks size b).2 = true ↔ ∃ data, mode.decompress b = .ok data := by
  refine ⟨fun whole => ?_, ?_⟩
  · cases mode with
    | gzip =>
      obtain ⟨data, expanded⟩ := Gzip.exists_decompress? whole
      refine ⟨data, ?_⟩
      rw [decompress, expanded]
      rfl
    | none => exact ⟨b, rfl⟩
  · rintro ⟨data, expanded⟩
    obtain ⟨handed, complete, _⟩ := chunks_of_decompress expanded size
    rw [complete]

/-- The chunks of data that can be expanded are this data. -/
lemma flatten_chunks {data : Bytes} (expanded : mode.decompress b = .ok data) :
    (mode.chunks size b).1.flatten = data := by
  obtain ⟨handed, complete, whole⟩ := chunks_of_decompress expanded size
  rw [complete]
  exact whole

/-- Data that cannot be expanded is refused for its form. -/
lemma eq_gzip_of_decompress {e : MailError} (failed : mode.decompress b = .error e) :
    e = .invalid .gzip := by
  cases mode with
  | gzip =>
    rw [decompress] at failed
    cases expanded : Gzip.decompress? b with
    | none =>
      rw [expanded] at failed
      cases failed
      rfl
    | some data =>
      rw [expanded] at failed
      cases failed
  | none => cases failed

end Compression

/-! ## Receivers -/

section Receiver

variable {σ : Type} {receive : Bytes → MailM σ Unit}

/-- The receiver, with a record of all that is handed to it, also of what it refuses. -/
def recorded (receive : Bytes → MailM σ Unit) (chunk : Bytes) : MailM (List Bytes × σ) Unit :=
  fun (record, s) => ((receive chunk s).1, record ++ [chunk], (receive chunk s).2)

/-- The receiver accepts the first chunks and refuses the one after them. -/
def Refused (receive : Bytes → MailM σ Unit) (s : σ) (before : List Bytes) (chunk : Bytes)
    (e : MailError) (s' : σ) : Prop :=
  ∃ s'', before.forM receive s = (.ok (), s'') ∧ receive chunk s'' = (.error e, s')

/-- A chunk that was received is on record. -/
lemma recorded_eq {chunk : Bytes} {s s' : σ} {result : Except MailError Unit}
    (run : receive chunk s = (result, s')) (record : List Bytes) :
    recorded receive chunk (record, s) = (result, record ++ [chunk], s') := by
  rw [recorded, run]

/-- The receiver is handed all of the chunks, or those up to the one that it refuses. -/
lemma forM_recorded (receive : Bytes → MailM σ Unit) (chunks record : List Bytes) (s : σ) :
    (∃ s', chunks.forM receive s = (.ok (), s') ∧
      chunks.forM (recorded receive) (record, s) = (.ok (), record ++ chunks, s')) ∨
    ∃ before chunk after e s', chunks = before ++ chunk :: after ∧
      Refused receive s before chunk e s' ∧ chunks.forM receive s = (.error e, s') ∧
      chunks.forM (recorded receive) (record, s) =
        (.error e, record ++ (before ++ [chunk]), s') := by
  induction chunks generalizing record s with
  | nil => exact .inl ⟨s, rfl, by rw [List.append_nil]; rfl⟩
  | cons chunk chunks ih =>
    simp only [List.forM_eq_forM, List.forM_cons] at ih ⊢
    cases run : receive chunk s with
    | mk result s₁ =>
      have run' := recorded_eq run record
      cases result with
      | error e =>
        refine .inr ⟨[], chunk, chunks, e, s₁, rfl, ⟨s, rfl, run⟩, MailM.bind_error run, ?_⟩
        exact MailM.bind_error run'
      | ok _ =>
        rw [MailM.bind_ok run, MailM.bind_ok run']
        obtain ⟨s', whole, taken⟩ | ⟨before, refused, after, e, s', rfl, stops, failed, taken⟩ :=
          ih (record ++ [chunk]) s₁
        · refine .inl ⟨s', whole, ?_⟩
          rw [taken, List.append_assoc, List.singleton_append]
        · obtain ⟨s₂, accepted, stopped⟩ := stops
          refine .inr ⟨chunk :: before, refused, after, e, s', rfl, ⟨s₂, ?_, stopped⟩, failed, ?_⟩
          · rw [List.forM_eq_forM, List.forM_cons, MailM.bind_ok run]
            exact accepted
          · rw [taken, List.append_assoc, List.singleton_append, List.cons_append]

end Receiver

namespace Compression

variable {σ : Type} {receive : Bytes → MailM σ Unit} {mode : Compression} {size : Nat} {b : Bytes}
  {s s' : σ}

/-- If every chunk is accepted, handing on ends as expanding does. -/
lemma decompressTo_of_accepted
    (accepted : (mode.chunks size b).1.forM receive s = (.ok (), s')) :
    mode.decompressTo size b receive s = ((mode.decompress b).map fun _ => (), s') := by
  rw [decompressTo_eq]
  refine (MailM.bind_ok accepted).trans ?_
  cases expanded : mode.decompress b with
  | ok data =>
    rw [chunks_complete_iff.mpr ⟨data, expanded⟩]
    rfl
  | error e =>
    have incomplete : (mode.chunks size b).2 = false := by
      rw [← Bool.not_eq_true, chunks_complete_iff, expanded]
      rintro ⟨data, ⟨⟩⟩
    rw [incomplete, eq_gzip_of_decompress expanded]
    rfl

/-- If a chunk is refused, handing on ends with this refusal. -/
lemma decompressTo_of_refused {e : MailError}
    (refused : (mode.chunks size b).1.forM receive s = (.error e, s')) :
    mode.decompressTo size b receive s = (.error e, s') := by
  rw [decompressTo_eq]
  exact MailM.bind_error refused

/-- The receiver is handed all of the chunks, or those up to the one that it refuses, and keeping a
record of them makes no difference. -/
lemma decompressTo_recorded (mode : Compression) (size : Nat) (b : Bytes)
    (receive : Bytes → MailM σ Unit) (s : σ) :
    ∃ result taken s', mode.decompressTo size b receive s = (result, s') ∧
      mode.decompressTo size b (recorded receive) ([], s) = (result, taken, s') ∧
      taken <+: (mode.chunks size b).1 ∧
      (taken = (mode.chunks size b).1 ∧ taken.forM receive s = (.ok (), s') ∧
          result = ((mode.decompress b).map fun _ => ()) ∨
        ∃ before chunk e, taken = before ++ [chunk] ∧ Refused receive s before chunk e s' ∧
          result = .error e) := by
  obtain ⟨s', whole, taken⟩ | ⟨before, chunk, after, e, s', parts, stops, failed, taken⟩ :=
    forM_recorded receive (mode.chunks size b).1 [] s
  · exact ⟨_, _, s', decompressTo_of_accepted whole, decompressTo_of_accepted taken,
      List.prefix_refl _, .inl ⟨rfl, whole, rfl⟩⟩
  · refine ⟨_, _, s', decompressTo_of_refused failed, decompressTo_of_refused taken, ?_,
      .inr ⟨before, chunk, e, rfl, stops, rfl⟩⟩
    exact ⟨after, by rw [parts]; simp⟩

/-- Data that is handed on in chunks is the data that is expanded at once. No chunk is empty, or
longer than asked for, where a size of 0 counts as 1. A receiver that accepts every chunk gets all
of them, with the success or the failure of expanding at once, and whenever this succeeds the chunks
are the data, whatever their size. A receiver that refuses a chunk ends the whole with its own error
and is handed nothing more; what it was handed is the beginning of what any other receiver is. -/
theorem streamed_as_expanded (mode : Compression) (size : Nat) (b : Bytes) :
    ∃ chunks : List Bytes, (∀ chunk ∈ chunks, chunk ≠ [] ∧ chunk.length ≤ max size 1) ∧
      (∀ data, mode.decompress b = .ok data → chunks.flatten = data) ∧
      ∀ {σ : Type} (receive : Bytes → MailM σ Unit) (s : σ), ∃ result taken s',
        mode.decompressTo size b receive s = (result, s') ∧
        mode.decompressTo size b (recorded receive) ([], s) = (result, taken, s') ∧
        taken <+: chunks ∧
        ((∀ chunk s, (receive chunk s).1 = .ok ()) →
          taken = chunks ∧ result = (mode.decompress b).map fun _ => ()) ∧
        (taken = chunks ∧ taken.forM receive s = (.ok (), s') ∧
            result = ((mode.decompress b).map fun _ => ()) ∨
          ∃ before chunk e, taken = before ++ [chunk] ∧ Refused receive s before chunk e s' ∧
            result = .error e) := by
  refine ⟨(mode.chunks size b).1, fun chunk mem => mem_chunks mem,
    fun data expanded => flatten_chunks expanded, fun receive s => ?_⟩
  obtain ⟨result, taken, s', run, run', first, ends⟩ := decompressTo_recorded mode size b receive s
  refine ⟨result, taken, s', run, run', first, fun accepts => ?_, ends⟩
  obtain ⟨all, _, told⟩ | ⟨_, chunk, e, _, ⟨s'', _, refused⟩, _⟩ := ends
  · exact ⟨all, told⟩
  · have accepted := accepts chunk s''
    rw [refused] at accepted
    cases accepted

/-- A greeting that is handed on in chunks of two bytes, data that is not compressed at all, and a
receiver that refuses whatever it is handed, which is a single byte. -/
theorem streamed_as_expanded_greeting :
    let b := Compression.gzip.compress [72, 105, 33]
    let accept : Bytes → MailM Nat Unit := fun chunk n => (.ok (), n + chunk.length)
    let refuse : Bytes → MailM Nat Unit := fun _ n => (.error (.integrity .streamTooLong), n)
    (∃ taken n, Compression.gzip.decompressTo 2 b (recorded accept) ([], 0) = (.ok (), taken, n) ∧
      taken.flatten = [72, 105, 33] ∧ ∀ chunk ∈ taken, chunk.length ≤ 2) ∧
    (∃ n, Compression.gzip.decompressTo 2 [72, 105] accept 0 = (.error (.invalid .gzip), n)) ∧
    ∃ chunk, Compression.gzip.decompressTo 0 b (recorded refuse) ([], 0) =
      (.error (.integrity .streamTooLong), [chunk], 0) ∧ chunk.length = 1 := by
  intro b accept refuse
  have expanded : Compression.gzip.decompress b = .ok [72, 105, 33] :=
    decompress_compress .gzip [72, 105, 33]
  refine ⟨?_, ?_, ?_⟩
  · obtain ⟨chunks, sizes, whole, runs⟩ := streamed_as_expanded .gzip 2 b
    obtain ⟨result, taken, n, _, run, _, accepted, _⟩ := runs accept 0
    obtain ⟨all, told⟩ := accepted fun _ _ => rfl
    rw [all, told, expanded] at run
    exact ⟨chunks, n, run, whole _ expanded, fun chunk mem => (sizes chunk mem).2⟩
  · obtain ⟨chunks, _, _, runs⟩ := streamed_as_expanded .gzip 2 [72, 105]
    obtain ⟨result, taken, n, run, _, _, accepted, _⟩ := runs accept 0
    have refused : Compression.gzip.decompress [72, 105] = .error (.invalid .gzip) := rfl
    rw [(accepted fun _ _ => rfl).2, refused] at run
    exact ⟨n, run⟩
  · obtain ⟨chunks, sizes, whole, runs⟩ := streamed_as_expanded .gzip 0 b
    obtain ⟨result, taken, n, _, run, first, _, ends⟩ := runs refuse 0
    obtain ⟨rfl, accepted, _⟩ | ⟨before, chunk, e, rfl, ⟨n', accepted, refused⟩, rfl⟩ := ends
    -- there is something to hand on, and it is refused
    · cases taken with
      | nil => cases whole _ expanded
      | cons chunk chunks => cases accepted
    · cases before with
      | cons chunk' before => cases accepted
      | nil =>
        cases accepted
        cases refused
        obtain ⟨nonempty, short⟩ := sizes chunk (first.subset (List.mem_singleton_self chunk))
        have positive := List.length_pos_of_ne_nil nonempty
        exact ⟨chunk, run, by omega⟩

end Compression

end SealedMail
