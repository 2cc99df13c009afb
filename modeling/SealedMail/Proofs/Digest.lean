import Mathlib.Tactic.Lemma
import SealedMail.Digest.Sha512

/-!
# Digests of a message in parts

A hasher that is fed a message in any parts gives the digest of the message (`Sha512.finish_feed`).
Absorbing is a left action of byte strings, up to the bytes that do not make a block yet
(`Variant.absorb_append`); the padded message is all blocks, so that absorbing it leaves nothing
(`Variant.absorb_of_dvd`).
-/

namespace SealedMail.Digest

variable {W : Type} (v : Variant W)

namespace Variant

/-- Less than a block is kept for later. -/
lemma absorb_short {s : State W} {b : Bytes} (h : b.length < v.blockSize) :
    v.absorb s b = (s, b) := by
  have all : b.drop (v.blockSize - 1) = [] := List.drop_eq_nil_of_le (by omega)
  rw [absorb]
  split
  next => rfl
  next x rest more =>
    rw [all] at more
    cases more

/-- The first whole block is compressed, and the rest is absorbed after it. -/
lemma absorb_long {s : State W} {b : Bytes} (positive : 0 < v.blockSize)
    (h : v.blockSize ≤ b.length) :
    v.absorb s b = v.absorb (compress v s (b.take v.blockSize)) (b.drop v.blockSize) := by
  have more : b.drop (v.blockSize - 1) = b[v.blockSize - 1] :: b.drop v.blockSize := by
    rw [List.drop_eq_getElem_cons (by omega), Nat.sub_add_cancel positive]
  rw [absorb]
  split
  next all =>
    rw [all] at more
    cases more
  next x rest left =>
    rw [left] at more
    cases more
    rfl

/-- To absorb a message and then more is to absorb both at once. -/
lemma absorb_append (positive : 0 < v.blockSize) (s : State W) (a b : Bytes) :
    v.absorb s (a ++ b) = v.absorb (v.absorb s a).1 ((v.absorb s a).2 ++ b) := by
  induction h : a.length using Nat.strongRecOn generalizing s a with
  | ind n ih =>
    rcases Nat.lt_or_ge a.length v.blockSize with short | long
    · rw [absorb_short v short]
    · have both : v.blockSize ≤ (a ++ b).length := by
        rw [List.length_append]
        omega
      rw [absorb_long v positive both, absorb_long v positive long,
        List.take_append_of_le_length long, List.drop_append_of_le_length long]
      refine ih _ ?_ _ _ rfl
      rw [← h, List.length_drop]
      omega

/-- Bytes that are all blocks are absorbed block by block, and nothing is left. -/
lemma absorb_of_dvd (positive : 0 < v.blockSize) (s : State W) {b : Bytes}
    (whole : v.blockSize ∣ b.length) :
    v.absorb s b = ((b.pieces v.blockSize).foldl (compress v) s, []) := by
  -- on the length, which a block makes shorter by more than one
  induction h : b.length using Nat.strongRecOn generalizing s b with
  | ind n ih =>
    cases b with
    | nil =>
      rw [absorb_short v (show [].length < v.blockSize from positive), Bytes.pieces_nil]
      rfl
    | cons x rest =>
      have long : v.blockSize ≤ (x :: rest).length := Nat.le_of_dvd (Nat.succ_pos _) whole
      obtain ⟨n', size⟩ : ∃ k, v.blockSize = k + 1 := ⟨_, (Nat.succ_pred_eq_of_pos positive).symm⟩
      rw [absorb_long v positive long, Bytes.pieces_cons, List.foldl_cons]
      have left : (x :: rest).drop v.blockSize = rest.drop (v.blockSize - 1) := by
        rw [size]
        rfl
      have first : (x :: rest).take v.blockSize = x :: rest.take (v.blockSize - 1) := by
        rw [size]
        rfl
      rw [left, first]
      refine ih _ ?_ _ ?_ rfl
      · rw [← h, List.length_drop, List.length_cons]
        omega
      · rw [← left, List.length_drop]
        exact Nat.dvd_sub whole (Nat.dvd_refl _)

/-- The padding fills the last block. -/
lemma dvd_length_padded (positive : 0 < v.blockSize) (b : Bytes) :
    v.blockSize ∣ (b ++ v.padding b.length).length := by
  obtain ⟨used, hused⟩ : ∃ n, n = b.length + 1 + 2 * v.wordSize := ⟨_, rfl⟩
  have division := Nat.div_add_mod used v.blockSize
  have below := Nat.mod_lt used positive
  simp only [padding, List.length_append, List.length_cons, List.length_replicate,
    Bytes.length_ofNat, ← hused]
  split
  next full => exact ⟨used / v.blockSize, by omega⟩
  next partial_ => exact ⟨used / v.blockSize + 1, by rw [Nat.mul_succ]; omega⟩

end Variant

namespace Hasher

/-- The hasher has taken the message. -/
structure Took (hasher : Hasher W) (b : Bytes) : Prop where
  absorbed : v.absorb v.start b = (hasher.state, hasher.pending)
  length : hasher.length = b.length

variable {v}

/-- A new hasher has taken nothing. -/
lemma took_start (positive : 0 < v.blockSize) : (start v).Took v [] :=
  ⟨Variant.absorb_short v positive, rfl⟩

/-- A hasher that is updated has taken the bytes as well. -/
lemma Took.update (positive : 0 < v.blockSize) {hasher : Hasher W} {b : Bytes}
    (took : hasher.Took v b) (more : Bytes) : (hasher.update v more).Took v (b ++ more) := by
  refine ⟨?_, ?_⟩
  · rw [Variant.absorb_append v positive, took.absorbed]
    rfl
  · rw [List.length_append, ← took.length]
    rfl

/-- A hasher has taken all parts that it was fed. -/
lemma Took.feed (positive : 0 < v.blockSize) {hasher : Hasher W} {b : Bytes}
    (took : hasher.Took v b) (parts : List Bytes) :
    (parts.foldl (Hasher.update v) hasher).Took v (b ++ parts.flatten) := by
  induction parts generalizing hasher b with
  | nil =>
    rw [List.flatten_nil, List.append_nil]
    exact took
  | cons part parts ih =>
    rw [List.flatten_cons, ← List.append_assoc]
    exact ih (took.update positive part)

/-- The digest is that of all that was taken. -/
lemma Took.finish (positive : 0 < v.blockSize) {hasher : Hasher W} {b : Bytes}
    (took : hasher.Took v b) : hasher.finish v = v.digest b := by
  have all := Variant.absorb_append v positive v.start b (v.padding b.length)
  rw [Variant.absorb_of_dvd v positive _ (v.dvd_length_padded positive b), took.absorbed] at all
  rw [Hasher.finish, took.length, ← all]
  rfl

end Hasher

end SealedMail.Digest

namespace SealedMail.Sha512

/-- A block has at least one byte. -/
lemma blockSize_pos : 0 < variant.blockSize := by decide

/-- Every digest has the same length. -/
lemma length_digest (b : Bytes) : (digest b).length = size := by
  simp only [digest, Digest.Variant.digest, Digest.Variant.output, List.flatMap_cons,
    List.flatMap_nil, List.length_append, Bytes.length_ofNat, List.length_nil]
  rfl

/-- A hasher gives the digest of the message, in whatever parts it came. -/
theorem finish_feed (parts : List Bytes) :
    (parts.foldl Hasher.update Hasher.start).finish = digest parts.flatten := by
  have took := (Digest.Hasher.took_start blockSize_pos).feed blockSize_pos parts
  exact took.finish blockSize_pos

end SealedMail.Sha512
