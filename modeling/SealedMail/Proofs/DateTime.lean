import Mathlib.Algebra.Ring.Nat
import SealedMail.DateTime.Rfc3339
import SealedMail.Proofs.Runs

/-!
# Dates read back

Reading undoes writing (`ofString?_render`). Every field is written in a fixed number of digits, so
each reader of a field is shown to take exactly these digits from the front of a longer text; only
the fraction and the offset can be left out, and what stands behind them is never a digit.
-/

namespace SealedMail.DateTime

/-- As many digits are written as the width tells. -/
@[simp]
lemma length_digits (width n : Nat) : (digits width n).length = width := by
  induction width generalizing n with
  | zero => rfl
  | succ width ih => simp [digits, ih]

/-- Nothing but digits is written. -/
lemma isDigit_of_mem_digits {width n : Nat} {c : Char} (h : c ∈ digits width n) :
    c.isDigit = true := by
  induction width generalizing n with
  | zero => simp [digits] at h
  | succ width ih =>
    rcases List.mem_append.mp h with h | h
    · exact ih h
    · rw [List.mem_singleton.mp h, Nat.isDigit_digitChar]
      exact decide_eq_true (Nat.mod_lt _ (by decide))

/-- Digits hold a number up to what goes beyond their width. -/
lemma ofDigitChars_digits (width n : Nat) :
    Nat.ofDigitChars 10 (digits width n) 0 = n % 10 ^ width := by
  induction width generalizing n with
  | zero => simp [digits, Nat.mod_one]
  | succ width ih =>
    have last : n % 10 < 10 := Nat.mod_lt _ (by decide)
    rw [digits, Nat.ofDigitChars_append, ih, Nat.ofDigitChars_cons_digitChar_of_lt_ten last,
      Nat.ofDigitChars_nil, Nat.pow_succ', Nat.mod_mul]
    omega

/-- A number that fits is read from its digits, and the rest is left. -/
lemma number?_digits {width n : Nat} (h : n < 10 ^ width) (rest : List Char) :
    number? width (digits width n ++ rest) = some (n, rest) := by
  have front : (digits width n ++ rest).take width = digits width n := by
    rw [List.take_append_of_le_length (by simp), List.take_of_length_le (by simp)]
  have back : (digits width n ++ rest).drop width = rest := by
    rw [List.drop_append_of_le_length (by simp), List.drop_of_length_le (by simp), List.nil_append]
  have all_digits : (digits width n).all Char.isDigit = true :=
    List.all_eq_true.mpr fun c hc => isDigit_of_mem_digits hc
  simp [number?, front, back, all_digits, ofDigitChars_digits, Nat.mod_eq_of_lt h]

/-- Digits behind a point are read up to the first other character. -/
lemma fraction?_digits {width n : Nat} (positive : 0 < width) (narrow : width ≤ 9)
    (h : n < 10 ^ width) {rest : List Char} (stop : ∀ c ∈ rest.head?, c.isDigit = false) :
    fraction? ('.' :: (digits width n ++ rest)) = some (n * 10 ^ (9 - width), rest) := by
  have all_digits : ∀ c ∈ digits width n, c.isDigit = true := fun c hc => isDigit_of_mem_digits hc
  have run := takeWhile_run all_digits stop
  have back := dropWhile_run all_digits stop
  have kept : (digits width n).take 9 = digits width n := List.take_of_length_le (by simpa)
  have ne : digits width n ≠ [] := List.ne_nil_of_length_pos (by simpa)
  simp [fraction?, run, back, kept, ne, ofDigitChars_digits, Nat.mod_eq_of_lt h]

/-- The fraction of a second is read, whichever of its forms it has. -/
lemma fraction?_fractionChars {n : Nat} (h : n < 10 ^ 9) {rest : List Char}
    (stop : ∀ c ∈ rest.head?, c.isDigit = false) (noPoint : rest.head? ≠ some '.') :
    fraction? (fractionChars n ++ rest) = some (n, rest) := by
  rw [fractionChars]
  split
  next zero =>
    subst zero
    cases rest with
    | nil => rfl
    | cons c rest =>
      have ne : c ≠ '.' := by simpa using noPoint
      simp [fraction?, ne]
  next =>
    split
    next thousands =>
      rw [List.cons_append, fraction?_digits (by decide) (by decide) (by omega) stop]
      congr 2
      omega
    next =>
      split
      next thousands =>
        rw [List.cons_append, fraction?_digits (by decide) (by decide) (by omega) stop]
        congr 2
        omega
      next => rw [List.cons_append, fraction?_digits (by decide) (by decide) h stop]; simp

/-- The offset is read at the end of a text. -/
lemma offset?_offsetChars {offset : Int} (low : -1439 ≤ offset) (high : offset ≤ 1439) :
    offset? (offsetChars offset) = some (offset, []) := by
  obtain ⟨n, hn⟩ : ∃ n, n = offset.natAbs := ⟨_, rfl⟩
  have hours := number?_digits (show n / 60 < 10 ^ 2 by omega) (':' :: digits 2 (n % 60))
  have minutes := number?_digits (show n % 60 < 10 ^ 2 by omega) []
  have bound : n % 60 ≤ 59 := by omega
  rw [List.append_nil] at minutes
  rw [offsetChars, ← hn]
  split
  next zero => subst zero; rfl
  next =>
    split
    next negative =>
      simp [offset?, offsetSign?, hours, after?, minutes, bound]
      omega
    next =>
      simp [offset?, offsetSign?, hours, after?, minutes, bound]
      omega

/-- An offset begins with a letter or a sign, and with no digit. -/
lemma head?_offsetChars (offset : Int) :
    ∀ c ∈ (offsetChars offset).head?, c = 'Z' ∨ c = '+' ∨ c = '-' := by
  intro c hc
  rw [offsetChars] at hc
  split at hc
  · exact .inl (by simpa using hc.symm)
  · split at hc
    · exact .inr (.inr (by simpa using hc.symm))
    · exact .inr (.inl (by simpa using hc.symm))

/-- A fraction ends where the offset begins. -/
lemma not_isDigit_head?_offsetChars (offset : Int) :
    ∀ c ∈ (offsetChars offset).head?, c.isDigit = false := by
  intro c hc
  rcases head?_offsetChars offset c hc with rfl | rfl | rfl
  · rfl
  · rfl
  · rfl

/-- The fields of a date are read from its text. -/
lemma fields?_chars {d : DateFields} (h : d.Valid) : fields? (chars d) = some d := by
  obtain ⟨year, _, month, _, day, hour, minute, second, nanosecond, low, high⟩ := h
  have days : daysInMonth d.year d.month ≤ 31 := by
    rw [daysInMonth]
    split
    · split <;> omega
    · split <;> omega
  have stop := not_isDigit_head?_offsetChars d.offset
  have noPoint : (offsetChars d.offset).head? ≠ some '.' := by
    intro point
    rcases head?_offsetChars d.offset '.' (by simp [point]) with eq | eq | eq <;>
      exact absurd eq (by decide)
  simp [fields?, chars, number?_digits (show d.year < 10 ^ 4 by omega),
    number?_digits (show d.month < 10 ^ 2 by omega), number?_digits (show d.day < 10 ^ 2 by omega),
    number?_digits (show d.hour < 10 ^ 2 by omega), number?_digits (show d.minute < 10 ^ 2 by omega),
    number?_digits (show d.second < 10 ^ 2 by omega), after?, afterDate?,
    fraction?_fractionChars nanosecond stop noPoint, offset?_offsetChars low high]

/-- Reading back what was written gives the date, field by field. -/
@[simp]
theorem ofString?_render (d : DateTime) : ofString? (render d) = some d := by
  simp [ofString?, render, fields?_chars d.isValid, d.isValid]

/-- A date is not written as the empty text. -/
@[simp]
lemma isEmpty_render (d : DateTime) : (render d).isEmpty = false := by
  have ne : render d ≠ "" := by
    intro empty
    have read := ofString?_render d
    rw [empty] at read
    cases read
  simpa [String.isEmpty_iff] using ne

end SealedMail.DateTime
