import SealedMail.Compression.Stream
import SealedMail.Proofs.Bytes
import SealedMail.Proofs.Gzip.Extension

/-!
# Data read back from its compressed form

Expanding undoes compressing, whether the data is handed on in chunks (`chunks_passes`) or comes
at once (`decompress?_compress`). What a decoding gives is told by `Decoding.Yields`. Stored blocks
yield what they hold, by induction over the blocks. The dense form was tried when it was chosen, on
its own; by `inflate_extends` it yields the same in front of the trailer.
-/

namespace SealedMail.Gzip

/-- The decoding has this output, and this data is left after it. -/
inductive Decoding.Yields : Decoding → Bytes → Bytes → Prop where
  | ended {s} : Yields (.ended (.ok s)) [] s.rest
  | byte {x next b rest} :
    Yields (next ()) b rest →
    Yields (.byte x next) (x.value :: b) rest

/-- What is yielded is yielded where more data follows, and leaves this behind. -/
lemma Decoding.Yields.extend {tail : Bytes} {decoding decoding' : Decoding} {b rest : Bytes}
    (yields : decoding.Yields b rest) (rel : decoding.Extends tail decoding') :
    decoding'.Yields b (rest ++ tail) := by
  induction yields generalizing decoding' with
  | ended =>
    cases rel with
    | ended rel =>
      rw [← rel.2]
      exact .ended
  | byte _ ih =>
    cases rel with
    | byte same rel =>
      rw [← same]
      exact .byte (ih rel)

/-- The output that is collected is the output that a complete decoding yields. -/
lemma Decoding.collect_eq (decoding : Decoding) (output : ByteArray) :
    ∃ b, (decoding.collect output).1.data.toList = output.data.toList ++ b ∧
      ∀ s, (decoding.collect output).2 = .ok s → decoding.Yields b s.rest := by
  induction decoding generalizing output with
  | ended ending =>
    refine ⟨[], (List.append_nil _).symm, ?_⟩
    rintro s rfl
    exact .ended
  | byte x next ih =>
    obtain ⟨b, collected, yields⟩ := ih () (output.push x.value)
    refine ⟨x.value :: b, ?_, fun s h => .byte (yields s h)⟩
    rw [Decoding.collect, collected, ByteArray.data_push, Array.toList_push, List.append_assoc,
      List.singleton_append]

/-- A decoding that is complete yields its bytes. -/
lemma Decoding.yields_of_complete? {decoding : Decoding} {b : Bytes} {s : BitStream}
    (h : decoding.complete? = some (b, s)) : decoding.Yields b s.rest := by
  obtain ⟨b', collected, yields⟩ := decoding.collect_eq .empty
  rw [Decoding.complete?] at h
  split at h
  next output t whole =>
    cases h
    rw [whole] at collected yields
    rw [collected]
    exact yields s rfl
  next => cases h

/-- A decoding that yields bytes is complete with them. -/
lemma Decoding.Yields.complete? {decoding : Decoding} {b rest : Bytes}
    (yields : decoding.Yields b rest) :
    ∃ s, decoding.complete? = some (b, s) ∧ s.rest = rest := by
  have collected (output : ByteArray) : ∃ output' s,
      decoding.collect output = (output', .ok s) ∧
        output'.data.toList = output.data.toList ++ b ∧ s.rest = rest := by
    induction yields generalizing output with
    | @ended s => exact ⟨output, s, rfl, (List.append_nil _).symm, rfl⟩
    | @byte x next b rest _ ih =>
      obtain ⟨output', s, collected, whole, left⟩ := ih (output.push x.value)
      refine ⟨output', s, collected, ?_, left⟩
      rw [whole, ByteArray.data_push, Array.toList_push, List.append_assoc, List.singleton_append]
  obtain ⟨output, s, collected, whole, left⟩ := collected .empty
  refine ⟨s, ?_, left⟩
  rw [Decoding.complete?, collected]
  simp only [whole]
  rfl

/-! ## Stored blocks -/

/-- A number of 16 bits has a low byte and a high one. -/
lemma lowFirst_eq {n : Nat} (h : n < 65536) :
    ∃ a₀ a₁ : UInt8, lowFirst n = [a₀, a₁] ∧ a₀.toNat + 256 * a₁.toNat = n := by
  refine ⟨UInt8.ofNat (n % 256), UInt8.ofNat (n / 256 % 256), rfl, ?_⟩
  rw [UInt8.toNat_ofNat', UInt8.toNat_ofNat']
  omega

/-- The bytes of a stored block come before those of the next one. -/
lemma copyStored_yields {next : Continuation} {b c rest rest' : Bytes}
    (h : ∀ taken output, (next ⟨[], rest, taken⟩ output).Yields c rest') (taken : Nat)
    (output : ByteArray) :
    (copyStored next b.length (b ++ rest) taken output).Yields (b ++ c) rest' := by
  induction b generalizing taken output with
  | nil => exact h taken output
  | cons x b ih => exact .byte (ih _ _)

/-- A stored block is read, and its bytes are copied. -/
lemma inflateBlocks_storedBlock (last : Bool) (fuel : Nat) {b : Bytes}
    (short : b.length ≤ storedSize) (rest : Bytes) (taken : Nat) (output : ByteArray) :
    inflateBlocks (fuel + 1) ⟨[], storedBlock last b ++ rest, taken⟩ output =
      copyStored (if last then fun s _ => .ended (.ok s) else inflateBlocks fuel) b.length
        (b ++ rest) (taken + 1 + 4) output := by
  obtain ⟨a₀, a₁, written, number⟩ := lowFirst_eq (Nat.lt_succ_of_le short)
  have header : readBlockHeader ⟨[], storedBlock last b ++ rest, taken⟩ =
      .ok ((last, 0), ⟨List.replicate 5 false,
        a₀ :: a₁ :: ~~~a₀ :: ~~~a₁ :: (b ++ rest), taken + 1⟩) := by
    rw [storedBlock, written]
    cases last <;> rfl
  have stored (kind : Nat) (h : kind = 0) : inflateBlock kind = inflateStored := by
    subst h
    rfl
  rw [inflateBlocks, header]
  simp only [stored 0 rfl, inflateStored, and_self, if_true, number]

/-- The last stored block yields its bytes and leaves the rest. -/
lemma lastBlock_yields {piece : Bytes} (short : piece.length ≤ storedSize) (fuel : Nat)
    (rest : Bytes) (taken : Nat) (output : ByteArray) :
    (inflateBlocks (fuel + 1) ⟨[], storedBlock true piece ++ rest, taken⟩ output).Yields
      piece rest := by
  have copied : (copyStored (fun s _ => .ended (.ok s)) piece.length (piece ++ rest)
      (taken + 1 + 4) output).Yields (piece ++ []) rest :=
    copyStored_yields (fun taken _ => .ended (s := ⟨[], rest, taken⟩)) _ _
  rw [List.append_nil] at copied
  rw [inflateBlocks_storedBlock _ _ short]
  exact copied

/-- The blocks yield the pieces, and leave what is behind them. -/
lemma storedBlocks_yields {pieces : List Bytes} {fuel : Nat}
    (short : ∀ piece ∈ pieces, piece.length ≤ storedSize) (enough : pieces.length ≤ fuel)
    (rest : Bytes) (taken : Nat) (output : ByteArray) :
    (inflateBlocks (fuel + 1) ⟨[], storedBlocks pieces ++ rest, taken⟩ output).Yields
      pieces.flatten rest := by
  induction pieces generalizing fuel taken output with
  | nil => exact lastBlock_yields (Nat.zero_le _) _ _ taken output
  | cons piece pieces ih =>
    obtain ⟨first, later⟩ := List.forall_mem_cons.mp short
    -- the last block is marked, so the piece before it is not like the others
    cases pieces with
    | nil =>
      rw [List.flatten_singleton]
      exact lastBlock_yields first _ _ taken output
    | cons second pieces =>
      obtain ⟨fuel, rfl⟩ : ∃ n, fuel = n + 1 := Nat.exists_eq_succ_of_ne_zero (by
        rintro rfl
        cases enough)
      rw [storedBlocks, List.append_assoc, inflateBlocks_storedBlock _ _ first]
      · refine copyStored_yields ?_ _ _
        intro taken output
        exact ih later (Nat.le_of_succ_le_succ enough) _ _
      · exact nofun

/-- There are more bytes in stored blocks than blocks. -/
lemma length_storedBlocks (pieces : List Bytes) : pieces.length < (storedBlocks pieces).length := by
  have overhead (last : Bool) (b : Bytes) : 5 ≤ (storedBlock last b).length := by
    simp only [storedBlock, List.length_cons, List.length_append, List.length_map,
      List.length_reverse, Bytes.length_ofNat, lowFirst]
    omega
  induction pieces with
  | nil => exact Nat.lt_of_lt_of_le (by decide) (overhead true [])
  | cons piece pieces ih =>
    cases pieces with
    | nil => exact Nat.lt_of_lt_of_le (show 1 < 5 by decide) (overhead true piece)
    | cons second pieces =>
      have := overhead false piece
      rw [storedBlocks, List.length_append, List.length_cons]
      · omega
      · exact nofun

/-- The plain form yields the data and leaves the rest. -/
lemma deflateStored_yields (b rest : Bytes) (taken : Nat) :
    (inflate taken (deflateStored b ++ rest)).Yields b rest := by
  have enough : (b.pieces storedSize).length ≤ 0 + 8 * (deflateStored b ++ rest).length := by
    have := length_storedBlocks (b.pieces storedSize)
    rw [deflateStored, List.length_append]
    omega
  have yields := storedBlocks_yields (fun piece mem => (Bytes.of_mem_pieces mem).2)
    enough rest taken .empty
  rw [Bytes.flatten_pieces] at yields
  exact yields

/-! ## Compressed data -/

/-- Deflated data yields the data and leaves the rest. -/
lemma deflate_yields (b rest : Bytes) (taken : Nat) :
    (inflate taken (deflate b ++ rest)).Yields b rest := by
  rw [deflate]
  split
  · split
    next output s tried =>
      split
      next same =>
        -- whatever was tried gives the data back, since this was found out before it was used
        have yields := Decoding.yields_of_complete? tried
        rw [same.1, same.2] at yields
        exact yields.extend (inflate_extends 0 taken _ rest)
      next => exact deflateStored_yields b rest taken
    next => exact deflateStored_yields b rest taken
  · exact deflateStored_yields b rest taken

/-- A byte that comes out is behind those before. -/
lemma Pass.data_push (pass : Pass) (x : OutputByte) :
    (pass.push x).data = pass.data ++ [x.value] := List.reverse_cons

/-- A byte that comes out is counted in the checksum. -/
lemma Pass.total_push (pass : Pass) (x : OutputByte) :
    (pass.push x).total = pass.total.add [x.value] := by
  rw [Pass.total, Pass.data_push, Checksum.add_append]
  rfl

/-- What a decoding yields is handed on whole, however it is divided into passes and chunks, and
is found to fit if its checksum follows. -/
lemma Decoding.Yields.chunks_passes {decoding : Decoding} {b rest : Bytes}
    (yields : decoding.Yields b rest) (source : Source) (size : Nat) (pass : Pass) (begun : Bytes)
    (fits : (pass.total.add b).trailer <+: rest) :
    ∃ chunks, (decoding.passes source hasTrailer pass).chunks size begun = (chunks, true) ∧
      chunks.flatten = begun ++ (pass.data ++ b) := by
  -- on the bytes that are still to come; the pass and what was begun are those of any moment before
  induction yields generalizing pass begun with
  | @ended s =>
    have fits : hasTrailer pass.total s = true := List.isPrefixOf_iff_prefix.mpr fits
    refine ⟨(begun ++ pass.data).pieces size, ?_, ?_⟩
    · simp [Decoding.passes, Passes.chunks, fits]
    · rw [Bytes.flatten_pieces, List.append_nil]
  | @byte x next b rest _ ih =>
    rw [← List.singleton_append, Checksum.add_append] at fits
    rw [Decoding.passes]
    -- a pass takes the byte if it has room; otherwise the next pass begins with it
    split
    · obtain ⟨chunks, handed, whole⟩ := ih (pass.push x) begun
        (pass.total_push x ▸ fits)
      refine ⟨chunks, handed, ?_⟩
      rw [whole, Pass.data_push, List.append_assoc, List.singleton_append]
    · have later (begun : Bytes) := ih (pass.following source x) begun fits
      simp only [Passes.chunks]
      split
      · obtain ⟨chunks, handed, whole⟩ := later (begun ++ pass.data)
        refine ⟨chunks, handed, ?_⟩
        rw [whole, List.append_assoc]
        rfl
      · obtain ⟨chunks, handed, whole⟩ := later []
        refine ⟨(begun ++ pass.data).pieces size ++ chunks, ?_, ?_⟩
        · rw [handed]
        · rw [List.flatten_append, Bytes.flatten_pieces, whole, List.append_assoc]
          rfl

/-- Compressed data is read as a member with a plain header. -/
lemma read?_compress (b : Bytes) : ∃ source,
    Member.read? (compress b) = some ⟨source, 10, deflate b ++ (checksum b).trailer⟩ := by
  refine ⟨⟨(compress b).length, bufferStart (compress b)⟩, ?_⟩
  have length : (compress b).length - (deflate b ++ (checksum b).trailer).length = 10 := by
    rw [compress, List.length_append, Nat.add_sub_cancel]
    rfl
  have skipped : skipHeader (compress b) = some (deflate b ++ (checksum b).trailer) := rfl
  rw [Member.read?, skipped]
  show some (Member.mk _ ((compress b).length - _) _) = _
  rw [length]

/-- Expanding undoes compressing. -/
theorem decompress?_compress (b : Bytes) : decompress? (compress b) = some b := by
  obtain ⟨source, read⟩ := read?_compress b
  obtain ⟨s, complete, left⟩ := (deflate_yields b (checksum b).trailer 10).complete?
  have fits : hasTrailer (checksum b) s = true := by
    rw [hasTrailer, left]
    exact List.isPrefixOf_iff_prefix.mpr (List.prefix_refl _)
  rw [decompress?, read]
  show ((inflate 10 _).complete?.bind fun p => _) = some b
  rw [complete]
  exact if_pos fits

/-- Data that can be expanded is handed on whole, whatever the size of the chunks. -/
theorem chunks_passes {b data : Bytes} (expanded : decompress? b = some data) (size : Nat) :
    ∃ chunks, (passes b).chunks size [] = (chunks, true) ∧ chunks.flatten = data := by
  rw [decompress?] at expanded
  obtain ⟨member, read, expanded⟩ := Option.bind_eq_some_iff.mp expanded
  obtain ⟨⟨output, s⟩, complete, expanded⟩ := Option.bind_eq_some_iff.mp expanded
  simp only [Option.ite_none_right_eq_some] at expanded
  obtain ⟨fits, same⟩ := expanded
  cases same
  rw [passes, read]
  exact (Decoding.yields_of_complete? complete).chunks_passes member.source size _ _
    (List.isPrefixOf_iff_prefix.mp fits)

end SealedMail.Gzip

namespace SealedMail.Compression

/-- Expanding undoes compressing, in either mode. -/
@[simp]
theorem decompress_compress (mode : Compression) (b : Bytes) :
    mode.decompress (mode.compress b) = .ok b := by
  cases mode with
  | gzip => simp only [compress, decompress, Gzip.decompress?_compress, Option.elim_some]
  | none => rfl

/-- The chunks that are handed on, and whether they are all of the data. -/
def chunks (size : Nat) (b : Bytes) : Compression → List Bytes × Bool
  | .gzip => (Gzip.passes b).chunks size []
  | .none => (b.pieces size, true)

/-- Data that is handed on is received in chunks, and then found complete or not. -/
lemma decompressTo_eq {m : Type → Type} [Monad m] [LawfulMonad m] [MonadExceptOf MailError m]
    (mode : Compression) (size : Nat) (b : Bytes) (receive : Bytes → m Unit) :
    mode.decompressTo size b receive =
      (do (mode.chunks size b).1.forM receive
          unless (mode.chunks size b).2 do throw (.invalid .gzip)) := by
  cases mode with
  | gzip => exact Gzip.Passes.handOn_eq size receive _ [] _
  | none => simp [decompressTo, chunks]

/-- Data that can be expanded at once comes complete in chunks. -/
lemma chunks_of_decompress {mode : Compression} {b data : Bytes}
    (expanded : mode.decompress b = .ok data) (size : Nat) :
    ∃ handed, mode.chunks size b = (handed, true) ∧ handed.flatten = data := by
  cases mode with
  | gzip =>
    rw [decompress] at expanded
    cases found : Gzip.decompress? b with
    | none =>
      rw [found] at expanded
      cases expanded
    | some whole =>
      rw [found] at expanded
      cases expanded
      exact Gzip.chunks_passes found size
  | none =>
    cases expanded
    exact ⟨_, rfl, Bytes.flatten_pieces size b⟩

end SealedMail.Compression
