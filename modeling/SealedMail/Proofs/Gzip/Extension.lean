import Mathlib.Tactic.Lemma
import SealedMail.Gzip.Inflate

/-!
# Data with more behind it

What was read from compressed data is read from it as well where more data follows, and where other
data came before. Bit streams are related (`BitStream.Extends`) if they differ in the data behind
and in how much was taken; a reader is stable if it keeps related streams related, and every reader
is. So decodings are related as well (`inflate_extends`): until one ends in failure, the other has
the same output, and where one is complete so is the other, with more behind it. The other one may
also have more fuel.
-/

namespace SealedMail.Gzip

variable {α β : Type} {tail : Bytes}

/-! ## Streams -/

/-- The second stream is the first one with more data behind it. -/
def BitStream.Extends (tail : Bytes) (s s' : BitStream) : Prop :=
  s'.pending = s.pending ∧ s'.rest = s.rest ++ tail

/-- What is read does not depend on the data behind, nor on how much was taken before. -/
def BitReader.Stable (tail : Bytes) (reader : BitReader α) : Prop :=
  ∀ s s' a t, s.Extends tail s' → reader s = .ok (a, t) →
    ∃ t', reader s' = .ok (a, t') ∧ t.Extends tail t'

namespace BitReader.Stable

lemma pure (a : α) : Stable tail (Pure.pure a : BitReader α) := by
  intro s s' b t rel h
  cases h
  exact ⟨s', rfl, rel⟩

lemma bind {x : BitReader α} {f : α → BitReader β} (hx : Stable tail x)
    (hf : ∀ a, Stable tail (f a)) : Stable tail (x >>= f) := by
  intro s s' b t rel h
  change (x s >>= fun p => f p.1 p.2) = .ok (b, t) at h
  cases first : x s with
  | error stop =>
    rw [first] at h
    cases h
  | ok p =>
    rw [first] at h
    obtain ⟨u, read, rel'⟩ := hx _ _ _ _ rel first
    obtain ⟨t', read', rel''⟩ := hf p.1 _ _ _ _ rel' h
    refine ⟨t', ?_, rel''⟩
    change (x s' >>= fun p => f p.1 p.2) = .ok (b, t')
    rw [read]
    exact read'

lemma corrupt : Stable tail (BitReader.corrupt : BitReader α) := by
  intro s s' b t _ h
  cases h

lemma bit : Stable tail BitReader.bit := by
  intro ⟨pending, rest, taken⟩ ⟨pending', rest', taken'⟩ b t ⟨hp, hr⟩ h
  cases hp
  cases hr
  cases pending with
  | cons first pending =>
    cases h
    exact ⟨_, rfl, rfl, rfl⟩
  | nil =>
    cases rest with
    | nil => cases h
    | cons x rest =>
      cases h
      exact ⟨_, rfl, rfl, rfl⟩

lemma number (width : Nat) : Stable tail (BitReader.number width) := by
  induction width with
  | zero => exact pure 0
  | succ width ih => exact bind bit fun _ => bind ih fun _ => pure _

end BitReader.Stable

open BitReader (Stable)

/-! ## Readers -/

/-- Reading a symbol is stable. -/
lemma PrefixCode.stable_read (code : PrefixCode) : Stable tail code.read := by
  induction code with
  | empty => exact .corrupt
  | leaf n => exact .pure n
  | branch zero one ih₀ ih₁ =>
    refine .bind .bit ?_
    intro b
    cases b with
    | false => exact ih₀
    | true => exact ih₁

/-- Reading a length or a distance is stable. -/
lemma stable_readValue (kinds : List (Nat × Nat)) (kind : Nat) :
    Stable tail (readValue kinds kind) := by
  rw [readValue]
  split
  · exact .bind (.number _) fun _ => .pure _
  · exact .corrupt

/-- Reading a token is stable. -/
lemma Codes.stable_readToken (codes : Codes) : Stable tail codes.readToken := by
  refine .bind codes.literals.stable_read ?_
  intro symbol
  split
  · exact .pure _
  · split
    · exact .pure _
    · exact .bind (stable_readValue _ _) fun _ =>
        .bind codes.distances.stable_read fun _ => .bind (stable_readValue _ _) fun _ => .pure _

/-- Codes that are told by lengths need no data. -/
lemma Codes.stable_ofLengths (literals distances : List Nat) (tail : Bytes) :
    Stable tail (Codes.ofLengths literals distances) := by
  rw [Codes.ofLengths]
  split
  · exact .pure _
  · exact .corrupt

/-- Reading numbers is stable. -/
lemma stable_readNumbers (width count : Nat) : Stable tail (readNumbers width count) := by
  induction count with
  | zero => exact .pure _
  | succ count ih => exact .bind (.number _) fun _ => .bind ih fun _ => .pure _

/-- Reading a run of lengths is stable. -/
lemma stable_readRun (code : PrefixCode) (last : Option Nat) :
    Stable tail (readRun code last) := by
  refine .bind code.stable_read ?_
  intro symbol
  split
  · exact .pure _
  · split
    · cases last with
      | none => exact .corrupt
      | some length => exact .bind (.number _) fun _ => .pure _
    · split
      · exact .bind (.number _) fun _ => .pure _
      · exact .bind (.number _) fun _ => .pure _

/-- Reading the lengths of codes is stable. -/
lemma stable_readLengths (code : PrefixCode) (count fuel : Nat) (done : List Nat) :
    Stable tail (readLengths code count fuel done) := by
  induction fuel generalizing done with
  | zero => exact .corrupt
  | succ fuel ih =>
    rw [readLengths]
    split
    · exact .bind (stable_readRun code _) fun run => ih _
    · split
      · exact .pure _
      · exact .corrupt

/-- Reading the codes of a block is stable. -/
lemma Codes.stable_read : Stable tail Codes.read := by
  refine .bind (.number 5) fun literals => .bind (.number 5) fun distances =>
    .bind (.number 4) fun given => ?_
  dsimp only
  split
  · refine .bind (stable_readNumbers 3 _) fun sent => ?_
    split
    · exact .corrupt
    · exact .bind (stable_readLengths _ _ _ _) fun _ => Codes.stable_ofLengths _ _ _
  · exact .corrupt

/-- Reading the header of a block is stable. -/
lemma stable_readBlockHeader : Stable tail readBlockHeader :=
  .bind .bit fun _ => .bind (.number 2) fun _ => .pure _

/-! ## Decodings -/

/-- Until the first decoding fails, the second one has the same output, and where the first one is
complete, so is the second, with more data behind it. -/
inductive Decoding.Extends (tail : Bytes) : Decoding → Decoding → Prop where
  | failed {stop decoding} : Extends tail (.ended (.error stop)) decoding
  | ended {s s'} : s.Extends tail s' → Extends tail (.ended (.ok s)) (.ended (.ok s'))
  | byte {x x' next next'} :
    x'.value = x.value →
    Extends tail (next ()) (next' ()) →
    Extends tail (.byte x next) (.byte x' next')

/-- What follows extended streams is extended. -/
def ContinuesExtended (tail : Bytes) (next next' : Continuation) : Prop :=
  ∀ s s' output, s.Extends tail s' → (next s output).Extends tail (next' s' output)

/-- A copy of earlier bytes is the same where more data follows, and so is what comes after it. -/
lemma copyBack_extends {taken taken' distance length : Nat} {next next' : ByteArray → Decoding}
    (h : ∀ output, (next output).Extends tail (next' output)) (output : ByteArray) :
    (copyBack taken distance next length output).Extends tail
      (copyBack taken' distance next' length output) := by
  induction length generalizing output with
  | zero => exact h output
  | succ length ih => exact .byte rfl (ih _)

/-- The symbols of a block are the same where more data follows. -/
lemma inflateSymbols_extends {codes : Codes} {next next' : Continuation} {fuel fuel' : Nat}
    (h : ContinuesExtended tail next next') (enough : fuel ≤ fuel') :
    ContinuesExtended tail (inflateSymbols codes next fuel)
      (inflateSymbols codes next' fuel') := by
  induction fuel generalizing fuel' with
  | zero => intro s s' output _; exact .failed
  | succ fuel ih =>
    obtain ⟨fuel', rfl⟩ : ∃ n, fuel' = n + 1 := ⟨fuel' - 1, by omega⟩
    intro s s' output rel
    have ih := ih (Nat.le_of_succ_le_succ enough)
    rw [inflateSymbols, inflateSymbols]
    cases read : codes.readToken s with
    | error stop => exact .failed
    | ok p =>
      obtain ⟨token, t⟩ := p
      obtain ⟨t', read', rel'⟩ := codes.stable_readToken _ _ _ _ rel read
      rw [read']
      cases token with
      | literal x => exact .byte rfl (ih _ _ _ rel')
      | copy length distance => exact copyBack_extends (fun output => ih _ _ output rel') _
      | endOfBlock => exact h _ _ _ rel'

/-- Bytes of a stored block are the same where more data follows. -/
lemma copyStored_extends {next next' : Continuation} {length taken taken' : Nat} {b : Bytes}
    (h : ContinuesExtended tail next next') (output : ByteArray) :
    (copyStored next length b taken output).Extends tail
      (copyStored next' length (b ++ tail) taken' output) := by
  induction length generalizing b taken taken' output with
  | zero => exact h _ _ _ ⟨rfl, rfl⟩
  | succ length ih =>
    cases b with
    | nil => exact .failed
    | cons x b => exact .byte rfl (ih _)

/-- A stored block is the same where more data follows. -/
lemma inflateStored_extends {next next' : Continuation} (h : ContinuesExtended tail next next') :
    ContinuesExtended tail (inflateStored next) (inflateStored next') := by
  intro s s' output rel
  rw [inflateStored, inflateStored, rel.2]
  split
  next a₀ a₁ b₀ b₁ rest whole =>
    simp only [whole, List.cons_append]
    split
    · exact copyStored_extends h _
    · exact .failed
  next => exact .failed

/-- Where more data follows, there is more to go on. -/
lemma BitStream.Extends.bound_le {s s' : BitStream} (rel : s.Extends tail s') :
    s.bound ≤ s'.bound := by
  rw [BitStream.bound, BitStream.bound, rel.1, rel.2, List.length_append]
  omega

/-- A block with codes of its own is the same where more data follows. -/
lemma coded_extends {codes : BitReader Codes} (stable : BitReader.Stable tail codes)
    {next next' : Continuation} (h : ContinuesExtended tail next next') {s s' : BitStream}
    (rel : s.Extends tail s') (output : ByteArray) :
    Decoding.Extends tail
      (match codes s with
        | .error stop => .ended (.error stop)
        | .ok (codes, s) => inflateSymbols codes next s.bound s output)
      (match codes s' with
        | .error stop => .ended (.error stop)
        | .ok (codes, s) => inflateSymbols codes next' s.bound s output) := by
  cases read : codes s with
  | error stop => exact .failed
  | ok p =>
    obtain ⟨t', read', rel'⟩ := stable _ _ _ _ rel read
    rw [read']
    exact inflateSymbols_extends h rel'.bound_le _ _ _ rel'

/-- A block of any kind is the same where more data follows. -/
lemma inflateBlock_extends {kind : Nat} {next next' : Continuation}
    (h : ContinuesExtended tail next next') :
    ContinuesExtended tail (inflateBlock kind next) (inflateBlock kind next') := by
  intro s s' output rel
  -- the fixed codes are only known to be stable: they must not be worked out
  have fixed := Codes.stable_ofLengths fixedLiterals fixedDistances tail
  unfold inflateBlock
  generalize Codes.ofLengths fixedLiterals fixedDistances = codes at fixed ⊢
  obtain _ | _ | _ | _ := kind
  · exact inflateStored_extends h _ _ _ rel
  · exact coded_extends fixed h rel output
  · exact coded_extends Codes.stable_read h rel output
  · exact .failed

/-- Blocks are the same where more data follows, and with more fuel. -/
lemma inflateBlocks_extends {fuel fuel' : Nat} (enough : fuel ≤ fuel') :
    ContinuesExtended tail (inflateBlocks fuel) (inflateBlocks fuel') := by
  induction fuel generalizing fuel' with
  | zero => intro s s' output _; exact .failed
  | succ fuel ih =>
    obtain ⟨fuel', rfl⟩ : ∃ n, fuel' = n + 1 := ⟨fuel' - 1, by omega⟩
    intro s s' output rel
    rw [inflateBlocks, inflateBlocks]
    cases read : readBlockHeader s with
    | error stop => exact .failed
    | ok p =>
      obtain ⟨⟨last, kind⟩, t⟩ := p
      obtain ⟨t', read', rel'⟩ := stable_readBlockHeader _ _ _ _ rel read
      rw [read']
      refine inflateBlock_extends ?_ _ _ _ rel'
      cases last with
      | true =>
        intro s s' output rel
        exact .ended rel
      | false => exact ih (by omega)

/-- Inflating goes the same way where more data follows. -/
lemma inflate_extends (taken taken' : Nat) (b tail : Bytes) :
    (inflate taken b).Extends tail (inflate taken' (b ++ tail)) := by
  have rel : BitStream.Extends tail ⟨[], b, taken⟩ ⟨[], b ++ tail, taken'⟩ := ⟨rfl, rfl⟩
  exact inflateBlocks_extends rel.bound_le _ _ _ rel

end SealedMail.Gzip
