import Mathlib.Algebra.Ring.Nat
import Mathlib.Data.List.Basic
import Mathlib.Data.List.Induction
import SealedMail.Bytes.Basic

/-!
# Numbers and text read back from bytes

Bytes of one length and numbers below a power of 256 are the same thing (`toNat_ofNat`,
`ofNat_toNat`): leading zeros of a number are leading zero bytes. So four bytes are the number that
is read from them (`readUInt32?_eq_some`), and bytes that spell a text are the spelling of it
(`toString?_eq_some`). A text of ASCII characters has a byte for each of them (`ofString_eq_map`).
Pieces are neither empty nor longer than they may be (`of_mem_pieces`).
-/

namespace SealedMail.Bytes

/-- The bytes of a text are those of its characters. -/
lemma ofString_ofList (l : List Char) :
    ofString (.ofList l) = l.flatMap String.utf8EncodeChar := by
  simp [ofString, List.utf8Encode]

/-- Characters of a single byte each are their bytes. -/
lemma ofString_eq_map {l : List Char} (ascii : ∀ c ∈ l, c.utf8Size = 1) :
    ofString (.ofList l) = l.map Char.toUInt8 := by
  rw [ofString_ofList, List.map_eq_flatMap]
  apply List.flatMap_congr
  intro c mem
  exact String.utf8EncodeChar_eq_singleton (ascii c mem)

/-- Characters of one byte each make a text of as many bytes. -/
lemma length_ofString {l : List Char} (ascii : ∀ c ∈ l, c.utf8Size = 1) :
    (ofString (.ofList l)).length = l.length := by
  rw [ofString_eq_map ascii, List.length_map]

@[simp]
lemma toNat_nil : toNat [] = 0 := rfl

/-- Bytes hold a number up to what goes beyond their width. -/
theorem toNat_ofNat (width n : Nat) : toNat (ofNat width n) = n % 256 ^ width := by
  induction width generalizing n with
  | zero => simp [ofNat, ofNatOnto, toNat, Nat.mod_one]
  | succ width ih =>
    calc toNat (ofNat (width + 1) n)
      _ = n / 256 % 256 ^ width * 256 + n % 256 := by
        simp [ofNat_succ, toNat_append_singleton, ih]
      _ = n % 256 ^ (width + 1) := by
        rw [Nat.pow_succ', Nat.mod_mul, Nat.mul_comm, Nat.add_comm]

/-- Bytes in front stand higher than those behind them. -/
lemma toNat_append (a b : Bytes) : toNat (a ++ b) = toNat a * 256 ^ b.length + toNat b := by
  induction b using List.reverseRecOn with
  | nil => simp
  | append_singleton b x ih =>
    rw [← List.append_assoc, toNat_append_singleton, ih, toNat_append_singleton, List.length_append,
      List.length_singleton, Nat.pow_succ, Nat.add_mul, Nat.mul_assoc, Nat.add_assoc]

/-- Bytes hold no number that needs more of them. -/
lemma toNat_lt (b : Bytes) : toNat b < 256 ^ b.length := by
  induction b using List.reverseRecOn with
  | nil => exact Nat.one_pos
  | append_singleton b x ih =>
    have := x.toNat_lt
    rw [toNat_append_singleton, List.length_append, List.length_singleton, Nat.pow_succ]
    omega

/-- Bytes are what is written for their number in their length. -/
lemma ofNat_toNat (b : Bytes) : ofNat b.length (toNat b) = b := by
  induction b using List.reverseRecOn with
  | nil => rfl
  | append_singleton b x ih =>
    have bound := x.toNat_lt
    rw [List.length_append, List.length_singleton, ofNat_succ, toNat_append_singleton,
      show (toNat b * 256 + x.toNat) / 256 = toNat b by omega,
      show (toNat b * 256 + x.toNat) % 256 = x.toNat by omega, ih, UInt8.ofNat_toNat]

/-- Zero bytes are the number zero. -/
lemma toNat_replicate_zero (n : Nat) : toNat (List.replicate n 0) = 0 := by
  induction n with
  | zero => rfl
  | succ n ih =>
    rw [List.replicate_succ', toNat_append_singleton, ih]
    rfl

/-- In a wider field there are zeros in front. -/
lemma ofNat_add_toNat (n : Nat) (b : Bytes) :
    ofNat (n + b.length) (toNat b) = List.replicate n 0 ++ b := by
  have number : toNat b = toNat (List.replicate n 0 ++ b) := by
    rw [toNat_append, toNat_replicate_zero, Nat.zero_mul, Nat.zero_add]
  have length : n + b.length = (List.replicate n 0 ++ b : Bytes).length := by
    rw [List.length_append, List.length_replicate]
  rw [number, length, ofNat_toNat]

/-- A number that fits is read back from its bytes. -/
lemma toNat_ofNat_of_lt {width n : Nat} (h : n < 256 ^ width) : toNat (ofNat width n) = n := by
  rw [toNat_ofNat, Nat.mod_eq_of_lt h]

/-- A number of 32 bits is read from the front, and the rest is left. -/
@[simp]
lemma readUInt32?_append (n : UInt32) (rest : Bytes) :
    readUInt32? (ofUInt32 n ++ rest) = some (n, rest) := by
  have four : ∃ a b c d, ofUInt32 n = [a, b, c, d] := by
    have length := length_ofUInt32 n
    match ofUInt32 n, length with
    | [a, b, c, d], _ => exact ⟨a, b, c, d, rfl⟩
  obtain ⟨a, b, c, d, h⟩ := four
  have number : UInt32.ofNat (toNat [a, b, c, d]) = n := by
    rw [← h, ofUInt32, toNat_ofNat_of_lt n.toNat_lt, UInt32.ofNat_toNat]
  rw [h]
  show some (UInt32.ofNat (toNat [a, b, c, d]), rest) = some (n, rest)
  rw [number]

/-- Four bytes are what is written for their number. -/
lemma ofUInt32_ofNat_toNat {b : Bytes} (length : b.length = 4) :
    ofUInt32 (UInt32.ofNat (toNat b)) = b := by
  have small : toNat b < UInt32.size := by
    have := toNat_lt b
    rwa [length] at this
  rw [ofUInt32, UInt32.toNat_ofNat_of_lt' small, ← length, ofNat_toNat]

/-- The first four bytes are a number whatever they are. -/
lemma readUInt32?_eq_some {b rest : Bytes} {n : UInt32} :
    readUInt32? b = some (n, rest) ↔ b = ofUInt32 n ++ rest := by
  refine ⟨fun h => ?_, ?_⟩
  · rw [readUInt32?.eq_def] at h
    split at h
    next a b c d rest' =>
      obtain ⟨rfl, rfl⟩ := Prod.mk.inj (Option.some.inj h)
      rw [ofUInt32_ofNat_toNat rfl]
      rfl
    next => cases h
  · rintro rfl
    exact readUInt32?_append n rest

/-- No number is read exactly from fewer than four bytes. -/
lemma readUInt32?_eq_none {b : Bytes} : readUInt32? b = none ↔ b.length < 4 := by
  match b with
  | [] | [_] | [_, _] | [_, _, _] => exact ⟨fun _ => by simp, fun _ => rfl⟩
  | _ :: _ :: _ :: _ :: rest => exact ⟨nofun, fun short => absurd short (by simp)⟩

/-- A text has one spelling in bytes. -/
lemma toString?_eq_some {b : Bytes} {s : String} : toString? b = some s ↔ b = ofString s := by
  refine ⟨fun h => ?_, ?_⟩
  · rw [toString?, String.fromUTF8?] at h
    split at h
    next valid =>
      cases h
      show b = b.toByteArray.data.toList
      simp
    next => cases h
  · rintro rfl
    exact toString?_ofString s

/-- No piece is empty, and none is longer than the size. -/
lemma of_mem_pieces {size : Nat} {b piece : Bytes} (mem : piece ∈ b.pieces size) :
    piece ≠ [] ∧ piece.length ≤ max size 1 := by
  induction h : b.length using Nat.strongRecOn generalizing b with
  | ind n ih =>
    cases b with
    | nil =>
      rw [pieces_nil] at mem
      cases mem
    | cons x rest =>
      rw [pieces_cons] at mem
      rcases List.mem_cons.mp mem with rfl | mem
      · refine ⟨List.cons_ne_nil _ _, ?_⟩
        rw [List.length_cons, List.length_take]
        omega
      · refine ih _ ?_ mem rfl
        rw [← h, List.length_drop, List.length_cons]
        omega

end SealedMail.Bytes
