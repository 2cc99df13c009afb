import SealedMail.Json.Printer
import SealedMail.Json.Reader
import SealedMail.Proofs.Runs

/-!
# String literals and numerals read back

The tokens of a JSON text whose spelling is not fixed. A string literal is read as one element for
each character that was quoted (`Document.literal_flatMap_escapeChar`), and these elements spell
the string again (`text?_charUnits`). The digits of an integer are read as a numeral
(`Document.numeral_decimal`) whose value is the integer (`ofNumeral?_decimalNumeral`). What follows
the token must not look like more of it, which `Ends` says for every place where a value can end.
-/

namespace SealedMail.Json

/-! ## String literals -/

/-- The element of a literal as which a character is read back. -/
def charUnit (c : Char) : TextUnit :=
  if c.toNat < 0x20 ∧ c ≠ '\x08' ∧ c ≠ '\x0c' ∧ c ≠ '\n' ∧ c ≠ '\r' ∧ c ≠ '\t' then .escape c.toNat
  else .plain c

/-- The digits of an escape spell the character below the blank. -/
lemma Document.hexUnit?_escapeDigits :
    ∀ n < 0x20, hexUnit? '0' '0' (escapeDigit (n / 16)) (escapeDigit (n % 16)) = some n := by
  decide

/-- What quoting makes of a character is read as one element. -/
lemma Document.literal_escapeChar (c : Char) (rest : List Char) (done : List TextUnit) :
    literal (escapeChar c ++ rest) done = literal rest (charUnit c :: done) := by
  -- each character that has an escape of its own, then the others below the blank
  by_cases quote : c = '"'
  · subst quote; rfl
  by_cases backslash : c = '\\'
  · subst backslash; rfl
  by_cases backspace : c = '\x08'
  · subst backspace; rfl
  by_cases feed : c = '\x0c'
  · subst feed; rfl
  by_cases newline : c = '\n'
  · subst newline; rfl
  by_cases return_ : c = '\r'
  · subst return_; rfl
  by_cases tab : c = '\t'
  · subst tab; rfl
  by_cases control : c.toNat < 0x20
  · have digits := hexUnit?_escapeDigits c.toNat control
    simp [escapeChar, charUnit, quote, backslash, backspace, feed, newline, return_, tab, control,
      literal, digits]
  · simp [escapeChar, charUnit, quote, backslash, control, backspace, feed, newline, return_, tab,
      literal]

/-- What quoting makes of a text is read as one element for each character. -/
lemma Document.literal_flatMap_escapeChar (cs rest : List Char) (done : List TextUnit) :
    literal (cs.flatMap escapeChar ++ '"' :: rest) done =
      some (done.reverse ++ cs.map charUnit, rest) := by
  induction cs generalizing done with
  | nil => simp [literal]
  | cons c cs ih =>
    rw [List.flatMap_cons, List.append_assoc, literal_escapeChar, ih]
    simp

/-- An escape that is not a surrogate stands for its own character. -/
lemma charsOnto_escape {unit : Nat} (h : unit < 0x20) (rest : List TextUnit) (done : List Char) :
    charsOnto (.escape unit :: rest) done = charsOnto rest (Char.ofNat unit :: done) := by
  have high : isHighSurrogate unit = false := by simp [isHighSurrogate]; omega
  have low : isLowSurrogate unit = false := by simp [isLowSurrogate]; omega
  cases rest with
  | nil => simp [charsOnto, high, low]
  | cons next rest =>
    cases next with
    | plain c => simp [charsOnto, high, low]
    | escape next => simp [charsOnto, high, low]

/-- The characters are read behind those that are done. -/
lemma charsOnto_charUnits (cs done : List Char) :
    charsOnto (cs.map charUnit) done = some (done.reverse ++ cs) := by
  induction cs generalizing done with
  | nil => simp [charsOnto]
  | cons c cs ih =>
    rw [List.map_cons, charUnit]
    split
    next control => rw [charsOnto_escape control.1, ih]; simp
    next => simp [charsOnto, ih]

/-- A text is read back from its characters. -/
@[simp]
lemma text?_charUnits (s : String) : text? (s.toList.map charUnit) = some s := by
  simp [text?, charsOnto_charUnits]

/-! ## Numerals -/

/-- Nothing more of a value can follow: the text is at its end, or at a mark behind a value. -/
def Ends (rest : List Char) : Prop := ∀ c ∈ rest.head?, c = ',' ∨ c = ']' ∨ c = '}'

@[simp]
lemma ends_nil : Ends [] := by simp [Ends]

/-- A value may stand before a comma or a closing bracket. -/
lemma ends_cons {c : Char} (h : c = ',' ∨ c = ']' ∨ c = '}') (rest : List Char) :
    Ends (c :: rest) := by
  simpa [Ends] using h

/-- No digit follows a value. -/
lemma Ends.not_isDigit {rest : List Char} (h : Ends rest) :
    ∀ c ∈ rest.head?, c.isDigit = false := by
  intro c hc
  rcases h c hc with rfl | rfl | rfl <;> rfl

/-- A run of digits is read up to where it ends. -/
lemma Document.digits?_append {run rest : List Char} (ne : run ≠ [])
    (digits : ∀ c ∈ run, c.isDigit = true) (stop : ∀ c ∈ rest.head?, c.isDigit = false) :
    digits? (run ++ rest) = some (run, rest) := by
  rw [digits?, takeWhile_run digits stop, dropWhile_run digits stop]
  simp [ne]

/-- Only the number zero is written with a zero in front. -/
lemma head?_toDigits_ne_zero {n : Nat} (h : n ≠ 0) : (Nat.toDigits 10 n).head? ≠ some '0' := by
  induction n using Nat.strongRecOn with
  | ind n ih =>
    by_cases small : n < 10
    · rw [Nat.toDigits_of_lt_base small]
      have digit : ∀ m < 10, m ≠ 0 → [m.digitChar].head? ≠ some '0' := by decide
      exact digit n small h
    · have front : Nat.toDigits 10 (n / 10) ≠ [] := Nat.toDigits_ne_nil
      rw [Nat.toDigits_of_base_le (by decide) (by omega)]
      cases digits : Nat.toDigits 10 (n / 10) with
      | nil => exact absurd digits front
      | cons c rest =>
        have := ih (n / 10) (by omega) (by omega)
        simpa [digits] using this

/-- The numeral as which the digits of an integer are read back. -/
def decimalNumeral (n : Int) : Numeral where
  negative := n < 0
  whole := Nat.toDigits 10 n.natAbs
  fraction := none
  exponent := none

/-- A numeral that ends a value has no fraction and no exponent. -/
lemma Document.fraction_exponent_of_ends {rest : List Char} (h : Ends rest) :
    fraction rest = some (none, rest) ∧ exponent rest = some (none, rest) := by
  cases rest with
  | nil => exact ⟨rfl, rfl⟩
  | cons c rest =>
    rcases h c (by simp) with rfl | rfl | rfl <;> exact ⟨rfl, rfl⟩

/-- The digits of a natural number are read as its numeral, behind a sign or not. -/
lemma Document.numeral_toDigits (n : Nat) {rest : List Char} (h : Ends rest) :
    digits? (Nat.toDigits 10 n ++ rest) = some (Nat.toDigits 10 n, rest) ∧
      ((Nat.toDigits 10 n).head? = some '0' → Nat.toDigits 10 n = ['0']) := by
  constructor
  · refine digits?_append Nat.toDigits_ne_nil (fun c hc => ?_) h.not_isDigit
    exact Nat.isDigit_of_mem_toDigits (by decide) (by decide) hc
  · intro zero
    by_cases hn : n = 0
    · subst hn; rfl
    · exact absurd zero (head?_toDigits_ne_zero hn)

/-- An integer is read as a numeral, and the rest is left. -/
lemma Document.numeral_decimal (n : Int) {rest : List Char} (h : Ends rest) :
    numeral (decimal n ++ rest) = some (decimalNumeral n, rest) := by
  obtain ⟨noFraction, noExponent⟩ := fraction_exponent_of_ends h
  cases n with
  | ofNat n =>
    obtain ⟨digits, leading⟩ := numeral_toDigits n h
    cases front : Nat.toDigits 10 n with
    | nil => exact absurd front Nat.toDigits_ne_nil
    | cons c front' =>
      have digit : c.isDigit = true :=
        Nat.isDigit_of_mem_toDigits (b := 10) (n := n) (by decide) (by decide) (by simp [front])
      have unsigned : c ≠ '-' := by
        rintro rfl
        exact absurd digit (by decide)
      rw [front] at digits leading
      simp only [List.cons_append] at digits
      simp [numeral, decimal, front, unsigned, digits, noFraction, noExponent, decimalNumeral]
      simpa using leading
  | negSucc n =>
    obtain ⟨digits, leading⟩ := numeral_toDigits (n + 1) h
    simp [numeral, decimal, digits, noFraction, noExponent, decimalNumeral]
    exact leading

/-- An integer of 64 bits is the value of its numeral. -/
lemma ofNumeral?_decimalNumeral {n : Int} (low : -0x8000000000000000 ≤ n)
    (high : n < 0x10000000000000000) :
    ofNumeral? (decimalNumeral n) = some (.integer n) := by
  have value : (decimalNumeral n).integer? = some n := by
    obtain ⟨magnitude, h⟩ : ∃ magnitude, magnitude = n.natAbs := ⟨_, rfl⟩
    simp only [Numeral.integer?, decimalNumeral, Numeral.ofDigits, Nat.ofDigitChars_ten_toDigits,
      UInt64.size, ← h]
    by_cases negative : n < 0
    · simp [negative]
      omega
    · simp [negative]
      omega
  simp [ofNumeral?, value]

end SealedMail.Json
