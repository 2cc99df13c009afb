import Mathlib.Tactic.Lemma
import SealedMail.Bytes.Base64

/-!
# Base 64 read back

Reading undoes writing (`decode?_encode`). The digits of one group of bytes are read as these bytes,
whatever follows a full group and with nothing behind a shorter one, so the proof is an induction
over the groups. Nothing else is read: digits that give bytes are the digits of these bytes
(`decode?_eq_some`). Every group has four characters (`length_encode`), digits or padding
(`mem_encode`).
-/

namespace SealedMail.Base64

/-- A digit is read as the value it was written for. -/
lemma value?_digit : ∀ n < 64, value? (digit n) = some n := by decide +kernel

/-- The padding is none of the digits. -/
lemma digit_ne_padding : ∀ n < 64, digit n ≠ '=' := by decide +kernel

/-- A byte is what its number is up to the ninth bit. -/
lemma byte_eq {n : Nat} {x : UInt8} (h : n % 256 = x.toNat) : byte n = x := by
  rw [byte, h, UInt8.ofNat_toNat]

/-- The digits of a full group are read as its bytes, whatever follows. -/
lemma decodeOnto_full (a b c : UInt8) (rest : List Char) (done : Bytes) :
    decodeOnto (encodeGroup [a, b, c] ++ rest) done = decodeOnto rest (c :: b :: a :: done) := by
  have boundA : a.toNat < 256 := a.toNat_lt_size
  have boundB : b.toNat < 256 := b.toNat_lt_size
  have boundC : c.toNat < 256 := c.toNat_lt_size
  have p := value?_digit (a.toNat / 4) (by omega)
  have q := value?_digit (a.toNat % 4 * 16 + b.toNat / 16) (by omega)
  have r := value?_digit (b.toNat % 16 * 4 + c.toNat / 64) (by omega)
  have s := value?_digit (c.toNat % 64) (by omega)
  have third := digit_ne_padding (b.toNat % 16 * 4 + c.toNat / 64) (by omega)
  have fourth := digit_ne_padding (c.toNat % 64) (by omega)
  have first : byte (a.toNat / 4 * 4 + (a.toNat % 4 * 16 + b.toNat / 16) / 16) = a :=
    byte_eq (by omega)
  have second : byte ((a.toNat % 4 * 16 + b.toNat / 16) * 16 +
      (b.toNat % 16 * 4 + c.toNat / 64) / 4) = b := byte_eq (by omega)
  have last : byte ((b.toNat % 16 * 4 + c.toNat / 64) * 64 + c.toNat % 64) = c :=
    byte_eq (by omega)
  simp [encodeGroup, decodeOnto, p, q, r, s, third, fourth, decodeFull, first, second, last]

/-- The digits of two bytes at the end are read as these bytes. -/
lemma decodeOnto_two (a b : UInt8) (done : Bytes) :
    decodeOnto (encodeGroup [a, b]) done = some (done.reverse ++ [a, b]) := by
  have boundA : a.toNat < 256 := a.toNat_lt_size
  have boundB : b.toNat < 256 := b.toNat_lt_size
  have p := value?_digit (a.toNat / 4) (by omega)
  have q := value?_digit (a.toNat % 4 * 16 + b.toNat / 16) (by omega)
  have r := value?_digit (b.toNat % 16 * 4) (by omega)
  have third := digit_ne_padding (b.toNat % 16 * 4) (by omega)
  have first : byte (a.toNat / 4 * 4 + (a.toNat % 4 * 16 + b.toNat / 16) / 16) = a :=
    byte_eq (by omega)
  have second : byte ((a.toNat % 4 * 16 + b.toNat / 16) * 16 + b.toNat % 16) = b :=
    byte_eq (by omega)
  simp [encodeGroup, decodeOnto, p, q, r, first, second]

/-- The digits of one byte at the end are read as this byte. -/
lemma decodeOnto_one (a : UInt8) (done : Bytes) :
    decodeOnto (encodeGroup [a]) done = some (done.reverse ++ [a]) := by
  have boundA : a.toNat < 256 := a.toNat_lt_size
  have p := value?_digit (a.toNat / 4) (by omega)
  have q := value?_digit (a.toNat % 4 * 16) (by omega)
  have first : byte (a.toNat / 4 * 4 + a.toNat % 4) = a := byte_eq (by omega)
  simp [encodeGroup, decodeOnto, p, q, first]

/-- The bytes that were written are read back behind those that are done. -/
lemma decodeOnto_encode (b done : Bytes) :
    decodeOnto ((Bytes.pieces 3 b).flatMap encodeGroup) done = some (done.reverse ++ b) := by
  induction h : b.length using Nat.strongRecOn generalizing b done with
  | ind n ih =>
    match b with
    | [] => simp [decodeOnto]
    | [a] => simp [Bytes.pieces_cons, decodeOnto_one]
    | [a, b] => simp [Bytes.pieces_cons, decodeOnto_two]
    | a :: b :: c :: rest =>
      have others := ih rest.length (by simp at h; omega) rest (c :: b :: a :: done) rfl
      simp [Bytes.pieces_cons, decodeOnto_full, others]

/-- Bytes are read back from their digits. -/
@[simp]
theorem decode?_encode (b : Bytes) : decode? (encode b) = some b := by
  simp [decode?, encode, decodeOnto_encode]

/-- Nothing is written for no bytes, and something for some. -/
@[simp]
lemma isEmpty_encode (b : Bytes) : (encode b).isEmpty = b.isEmpty := by
  cases b with
  | nil => simp [encode]
  | cons x rest =>
    have ne : encode (x :: rest) ≠ "" := by
      intro empty
      have read := decode?_encode (x :: rest)
      rw [empty] at read
      simp [decode?, decodeOnto] at read
    simpa [String.isEmpty_iff] using ne

/-- Only no bytes are written as the empty text. -/
lemma encode_eq_empty {b : Bytes} : encode b = "" ↔ b = [] := by
  rw [← String.isEmpty_iff, isEmpty_encode, List.isEmpty_iff]

/-! ## Nothing else is read -/

/-- A character with a value is the digit for it. -/
lemma digit_of_value? {c : Char} {n : Nat} (h : value? c = some n) : n < 64 ∧ digit n = c := by
  obtain ⟨bound, here, _⟩ := List.findIdx?_eq_some_iff_getElem.mp h
  have length : digits.length = 64 := by decide
  refine ⟨length ▸ bound, ?_⟩
  rw [digit, List.getD_eq_getElem?_getD, List.getElem?_eq_getElem bound]
  exact eq_of_beq here

/-- A byte is the number up to the ninth bit. -/
lemma toNat_byte (n : Nat) : (byte n).toNat = n % 256 := by
  rw [byte, UInt8.toNat_ofNat']
  omega

/-- A byte is written as the two digits it was read from, if they leave nothing unused. -/
lemma encodeGroup_one {p q : Nat} (hp : p < 64) (hq : q < 64) (unused : q % 16 = 0) :
    encodeGroup [byte (p * 4 + q / 16)] = [digit p, digit q, '=', '='] := by
  have first : (p * 4 + q / 16) % 256 / 4 = p := by omega
  have second : (p * 4 + q / 16) % 256 % 4 * 16 = q := by omega
  rw [encodeGroup, toNat_byte, first, second]

/-- Two bytes are written as the three digits they were read from, if these leave nothing unused. -/
lemma encodeGroup_two {p q r : Nat} (hp : p < 64) (hq : q < 64) (hr : r < 64)
    (unused : r % 4 = 0) :
    encodeGroup [byte (p * 4 + q / 16), byte (q * 16 + r / 4)] =
      [digit p, digit q, digit r, '='] := by
  have first : (p * 4 + q / 16) % 256 / 4 = p := by omega
  have second : (p * 4 + q / 16) % 256 % 4 * 16 + (q * 16 + r / 4) % 256 / 16 = q := by omega
  have third : (q * 16 + r / 4) % 256 % 16 * 4 = r := by omega
  rw [encodeGroup, toNat_byte, toNat_byte, first, second, third]

/-- Three bytes are written as the four digits they were read from. -/
lemma encodeGroup_full {p q r s : Nat} (hp : p < 64) (hq : q < 64) (hr : r < 64) (hs : s < 64) :
    encodeGroup (decodeFull p q r s) = [digit p, digit q, digit r, digit s] := by
  have first : (p * 4 + q / 16) % 256 / 4 = p := by omega
  have second : (p * 4 + q / 16) % 256 % 4 * 16 + (q * 16 + r / 4) % 256 / 16 = q := by omega
  have third : (q * 16 + r / 4) % 256 % 16 * 4 + (r * 64 + s) % 256 / 64 = r := by omega
  have fourth : (r * 64 + s) % 256 % 64 = s := by omega
  rw [decodeFull, encodeGroup, toNat_byte, toNat_byte, toNat_byte, first, second, third, fourth]

/-- What is read is what would be written for it: no text is read that writing does not produce. -/
lemma of_decodeOnto {cs : List Char} {done b : Bytes} (h : decodeOnto cs done = some b) :
    ∃ rest, b = done.reverse ++ rest ∧ cs = (Bytes.pieces 3 rest).flatMap encodeGroup := by
  fun_induction decodeOnto cs done with
  | case1 done =>
    cases h
    exact ⟨[], (List.append_nil _).symm, by simp⟩
  | case2 done c₁ c₂ =>
    simp only [Option.bind_eq_bind, Option.bind_eq_some_iff, Option.ite_none_right_eq_some,
      Option.some.injEq] at h
    obtain ⟨p, hp, q, hq, unused, rfl⟩ := h
    obtain ⟨boundP, rfl⟩ := digit_of_value? hp
    obtain ⟨boundQ, rfl⟩ := digit_of_value? hq
    refine ⟨_, rfl, ?_⟩
    simp [Bytes.pieces_cons, encodeGroup_one boundP boundQ unused]
  | case3 done c₁ c₂ c₃ =>
    simp only [Option.bind_eq_bind, Option.bind_eq_some_iff, Option.ite_none_right_eq_some,
      Option.some.injEq] at h
    obtain ⟨p, hp, q, hq, r, hr, unused, rfl⟩ := h
    obtain ⟨boundP, rfl⟩ := digit_of_value? hp
    obtain ⟨boundQ, rfl⟩ := digit_of_value? hq
    obtain ⟨boundR, rfl⟩ := digit_of_value? hr
    refine ⟨_, rfl, ?_⟩
    simp [Bytes.pieces_cons, encodeGroup_two boundP boundQ boundR unused]
  | case4 done c₁ c₂ c₃ c₄ rest _ _ ih =>
    simp only [Option.bind_eq_bind, Option.bind_eq_some_iff] at h
    obtain ⟨p, hp, q, hq, r, hr, s, hs, h⟩ := h
    obtain ⟨behind, rfl, rfl⟩ := ih p q r s h
    obtain ⟨boundP, rfl⟩ := digit_of_value? hp
    obtain ⟨boundQ, rfl⟩ := digit_of_value? hq
    obtain ⟨boundR, rfl⟩ := digit_of_value? hr
    obtain ⟨boundS, rfl⟩ := digit_of_value? hs
    refine ⟨decodeFull p q r s ++ behind, by simp, ?_⟩
    have group := encodeGroup_full boundP boundQ boundR boundS
    have pieces : Bytes.pieces 3 (decodeFull p q r s ++ behind) =
        decodeFull p q r s :: Bytes.pieces 3 behind := by
      simp [decodeFull, Bytes.pieces_cons]
    rw [pieces, List.flatMap_cons, group]
    rfl
  | case5 => cases h

/-- The texts that are read are those that are written. -/
lemma decode?_eq_some {text : String} {b : Bytes} : decode? text = some b ↔ text = encode b := by
  refine ⟨fun h => ?_, fun h => h ▸ decode?_encode b⟩
  obtain ⟨rest, rfl, chars⟩ := of_decodeOnto h
  apply String.toList_injective
  rw [encode, String.toList_ofList]
  exact chars

/-! ## The shape of what is written -/

/-- Four characters for every three bytes that were begun. -/
lemma length_encode (b : Bytes) : (encode b).toList.length = (b.length + 2) / 3 * 4 := by
  rw [encode, String.toList_ofList]
  induction h : b.length using Nat.strongRecOn generalizing b with
  | ind n ih =>
    match b with
    | [] => simp [← h]
    | [a] => simp [Bytes.pieces_cons, encodeGroup, ← h]
    | [a, b] => simp [Bytes.pieces_cons, encodeGroup, ← h]
    | a :: b :: c :: rest =>
      have others := ih rest.length (by simp at h; omega) rest rfl
      simp [Bytes.pieces_cons, others, encodeGroup, ← h]
      omega

/-- A digit is one of the digits. -/
lemma digit_mem (n : Nat) : digit n ∈ digits := by
  rw [digit, List.getD_eq_getElem?_getD]
  cases found : digits[n]? with
  | none => decide
  | some c => exact List.mem_of_getElem? found

/-- Bytes are written in digits and padding only. -/
lemma mem_encode {b : Bytes} {c : Char} (h : c ∈ (encode b).toList) : c ∈ '=' :: digits := by
  rw [encode, String.toList_ofList] at h
  obtain ⟨group, _, h⟩ := List.mem_flatMap.mp h
  match group with
  | [] => cases h
  | [a] =>
    simp only [encodeGroup, List.mem_cons, List.not_mem_nil, or_false] at h
    rcases h with rfl | rfl | rfl | rfl <;> simp [digit_mem]
  | [a, b] =>
    simp only [encodeGroup, List.mem_cons, List.not_mem_nil, or_false] at h
    rcases h with rfl | rfl | rfl | rfl <;> simp [digit_mem]
  | a :: b :: c :: _ =>
    simp only [encodeGroup, List.mem_cons, List.not_mem_nil, or_false] at h
    rcases h with rfl | rfl | rfl | rfl <;> simp [digit_mem]

end SealedMail.Base64
