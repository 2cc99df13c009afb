import SealedMail.Proofs.DateTime.Calendar
import SealedMail.Proofs.Schema

/-!
# The written form of a date

A date is written in one form (`DateTime.written_without_loss`): the letter Z for offset zero, and
of the fractions of 0, 3, 6 or 9 digits the shortest that says everything. To compare it with the
other forms in which the same moment can be written, the readers of the fields are followed up to
the point: none of them takes a point, and so the digits behind it decide which nanoseconds can be
read (`pow_dvd_nanosecond`).
-/

namespace SealedMail.DateTime

variable {cs rest : List Char} {c : Char} {n width : Nat} {d : DateFields}

/-- How many digits a text has behind its point. -/
def fractionWidth (cs : List Char) : Nat :=
  ((cs.dropWhile (· ≠ '.')).tail.takeWhile Char.isDigit).length

/-- What stands before the point does not count. -/
lemma fractionWidth_cons (ne : c ≠ '.') (rest : List Char) :
    fractionWidth (c :: rest) = fractionWidth rest := by
  have skipped : (c :: rest).dropWhile (fun c => decide (c ≠ '.')) =
      rest.dropWhile fun c => decide (c ≠ '.') := List.dropWhile_cons_of_pos (decide_eq_true ne)
  rw [fractionWidth, skipped, fractionWidth]

/-- Digits before the point do not count. -/
lemma fractionWidth_append (run : ∀ c ∈ cs, c.isDigit = true) (rest : List Char) :
    fractionWidth (cs ++ rest) = fractionWidth rest := by
  induction cs with
  | nil => rfl
  | cons c cs ih =>
    obtain ⟨digit, run⟩ := List.forall_mem_cons.mp run
    have ne : c ≠ '.' := by
      rintro rfl
      cases digit
    rw [List.cons_append, fractionWidth_cons ne, ih run]

/-- The digits that follow the point count, up to the first other character. -/
lemma fractionWidth_point (rest : List Char) :
    fractionWidth ('.' :: rest) = (rest.takeWhile Char.isDigit).length := rfl

/-! ## Reading up to the point -/

/-- A number takes no point from the front of a text. -/
lemma of_number?_bind {α : Type} {f : Nat × List Char → Option α} {a : α}
    (read : (number? width cs >>= f) = some a) :
    ∃ n rest, f (n, rest) = some a ∧ fractionWidth cs = fractionWidth rest := by
  obtain ⟨⟨n, rest⟩, front, read⟩ := Option.bind_eq_some_iff.mp read
  refine ⟨n, rest, read, ?_⟩
  rw [number?] at front
  split at front
  next digits =>
    cases front
    conv_lhs => rw [← List.take_append_drop width cs]
    exact fractionWidth_append (List.all_eq_true.mp digits.2) _
  next => cases front

/-- A mark that is no point does not count. -/
lemma of_after?_bind {α : Type} {f : List Char → Option α} {a : α} (ne : c ≠ '.')
    (read : (after? c cs >>= f) = some a) :
    ∃ rest, f rest = some a ∧ fractionWidth cs = fractionWidth rest := by
  obtain ⟨rest, front, read⟩ := Option.bind_eq_some_iff.mp read
  refine ⟨rest, read, ?_⟩
  cases cs with
  | nil => cases front
  | cons first cs =>
    rw [after?] at front
    split at front
    next eq =>
      cases front
      rw [eq]
      exact fractionWidth_cons ne _
    next => cases front

/-- The mark between date and time does not count. -/
lemma of_afterDate?_bind {α : Type} {f : List Char → Option α} {a : α}
    (read : (afterDate? cs >>= f) = some a) :
    ∃ rest, f rest = some a ∧ fractionWidth cs = fractionWidth rest := by
  obtain ⟨rest, front, read⟩ := Option.bind_eq_some_iff.mp read
  refine ⟨rest, read, ?_⟩
  rw [afterDate?.eq_def] at front
  split at front
  · cases front
    exact fractionWidth_cons (by decide) _
  · cases front
    exact fractionWidth_cons (by decide) _
  · cases front
    exact fractionWidth_cons (by decide) _
  · cases front

/-- A fraction of few digits leaves the later digits of the nanoseconds zero. -/
lemma pow_dvd_of_fraction? (read : fraction? cs = some (n, rest)) :
    10 ^ (9 - fractionWidth cs) ∣ n := by
  rw [fraction?.eq_def] at read
  split at read
  next digits =>
    simp only [List.length_take] at read
    split at read
    next => cases read
    next =>
      cases read
      have width : 9 - min 9 (digits.takeWhile Char.isDigit).length =
          9 - (digits.takeWhile Char.isDigit).length := by omega
      rw [fractionWidth_point, width]
      exact Nat.dvd_mul_left _ _
  next =>
    cases read
    exact Nat.dvd_zero _

/-- The digits behind the point hold all of the nanoseconds. -/
lemma pow_dvd_nanosecond (read : fields? cs = some d) :
    10 ^ (9 - fractionWidth cs) ∣ d.nanosecond := by
  rw [fields?] at read
  obtain ⟨_, _, read, year⟩ := of_number?_bind read
  obtain ⟨_, read, yearEnd⟩ := of_after?_bind (by decide) read
  obtain ⟨_, _, read, month⟩ := of_number?_bind read
  obtain ⟨_, read, monthEnd⟩ := of_after?_bind (by decide) read
  obtain ⟨_, _, read, day⟩ := of_number?_bind read
  obtain ⟨_, read, dayEnd⟩ := of_afterDate?_bind read
  obtain ⟨_, _, read, hour⟩ := of_number?_bind read
  obtain ⟨_, read, hourEnd⟩ := of_after?_bind (by decide) read
  obtain ⟨_, _, read, minute⟩ := of_number?_bind read
  obtain ⟨_, read, minuteEnd⟩ := of_after?_bind (by decide) read
  obtain ⟨_, _, read, second⟩ := of_number?_bind read
  obtain ⟨⟨nanosecond, _⟩, fraction, read⟩ := Option.bind_eq_some_iff.mp read
  obtain ⟨_, _, read⟩ := Option.bind_eq_some_iff.mp read
  obtain ⟨_, ⟨⟩⟩ := Option.ite_none_right_eq_some.mp read
  rw [year, yearEnd, month, monthEnd, day, dayEnd, hour, hourEnd, minute, minuteEnd, second]
  exact pow_dvd_of_fraction? fraction

/-! ## The shortest fraction -/

/-- The least of 0, 3, 6 and 9 digits that hold the nanoseconds. -/
def shortestWidth (n : Nat) : Nat :=
  if n = 0 then 0 else if n % 1000000 = 0 then 3 else if n % 1000 = 0 then 6 else 9

/-- The shortest fraction has a whole group of digits. -/
lemma shortestWidth_mem (n : Nat) : shortestWidth n ∈ [0, 3, 6, 9] := by
  rw [shortestWidth]
  split_ifs
  all_goals decide

/-- No allowed fraction that holds the nanoseconds is shorter. -/
lemma shortestWidth_le (small : n < 1000000000) (allowed : width ∈ [0, 3, 6, 9])
    (dvd : 10 ^ (9 - width) ∣ n) : shortestWidth n ≤ width := by
  simp only [List.mem_cons, List.not_mem_nil, or_false] at allowed
  obtain rfl | rfl | rfl | rfl := allowed
  · rw [shortestWidth, if_pos (Nat.eq_zero_of_dvd_of_lt dvd small)]
  · have zeros : n % 1000000 = 0 := Nat.mod_eq_zero_of_dvd dvd
    rw [shortestWidth, if_pos zeros]
    split_ifs
    all_goals decide
  · have zeros : n % 1000 = 0 := Nat.mod_eq_zero_of_dvd dvd
    rw [shortestWidth, if_pos zeros]
    split_ifs
    all_goals decide
  · exact (show ∀ w ∈ [0, 3, 6, 9], w ≤ 9 by decide) _ (shortestWidth_mem n)

/-! ## Writing -/

/-- The digits of date and time do not count. -/
lemma fractionWidth_digits (width n : Nat) (rest : List Char) :
    fractionWidth (digits width n ++ rest) = fractionWidth rest :=
  fractionWidth_append (fun _ mem => isDigit_of_mem_digits mem) rest

/-- An offset has no fraction. -/
lemma fractionWidth_offsetChars (offset : Int) : fractionWidth (offsetChars offset) = 0 := by
  have last (n : Nat) : fractionWidth (digits 2 n) = 0 := by
    rw [← List.append_nil (digits 2 n)]
    exact fractionWidth_digits 2 n []
  rw [offsetChars]
  split
  · rfl
  · have sign : (if offset < 0 then '-' else '+') ≠ '.' := by
      split
      · decide
      · decide
    rw [fractionWidth_cons sign, fractionWidth_digits, fractionWidth_cons (by decide), last]

/-- The shortest fraction is written. -/
lemma fractionWidth_fractionChars (n : Nat) (offset : Int) :
    fractionWidth (fractionChars n ++ offsetChars offset) = shortestWidth n := by
  have behind (width n : Nat) :
      fractionWidth ('.' :: digits width n ++ offsetChars offset) = width := by
    have run : ∀ c ∈ digits width n, c.isDigit = true := fun _ mem => isDigit_of_mem_digits mem
    rw [List.cons_append, fractionWidth_point,
      takeWhile_run run (not_isDigit_head?_offsetChars offset), length_digits]
  rw [fractionChars, shortestWidth]
  split
  · exact fractionWidth_offsetChars offset
  · split
    · exact behind 3 _
    · split
      · exact behind 6 _
      · exact behind 9 _

/-- What is written has the shortest fraction. -/
lemma fractionWidth_chars (d : DateFields) :
    fractionWidth (chars d) = shortestWidth d.nanosecond := by
  rw [chars, fractionWidth_digits, fractionWidth_cons (by decide), fractionWidth_digits,
    fractionWidth_cons (by decide), fractionWidth_digits, fractionWidth_cons (by decide),
    fractionWidth_digits, fractionWidth_cons (by decide), fractionWidth_digits,
    fractionWidth_cons (by decide), fractionWidth_digits, fractionWidth_fractionChars]

/-- The letter Z stands for offset zero only; every other offset ends in a digit. -/
lemma getLast?_offsetChars (offset : Int) :
    (offsetChars offset).getLast? = some 'Z' ↔ offset = 0 := by
  rw [offsetChars]
  split
  next zero => exact iff_of_true rfl zero
  next nonzero =>
    refine iff_of_false (fun last => ?_) nonzero
    have mem : 'Z' ∈ digits 2 (offset.natAbs % 60) := by
      rw [List.getLast?_cons_of_ne_nil (by simp), List.getLast?_append_of_ne_nil _ (by simp),
        List.getLast?_cons_of_ne_nil] at last
      · exact List.mem_of_getLast? last
      · exact List.ne_nil_of_length_pos (by simp)
    exact absurd (isDigit_of_mem_digits mem) (by decide)

/-- An offset is written by something. -/
lemma offsetChars_ne_nil (offset : Int) : offsetChars offset ≠ [] := by
  rw [offsetChars]
  split
  · exact List.cons_ne_nil _ _
  · exact List.cons_ne_nil _ _

/-- The offset ends the text. -/
lemma getLast?_chars (d : DateFields) :
    (chars d).getLast? = (offsetChars d.offset).getLast? := by
  obtain ⟨front, whole⟩ : ∃ front, chars d = front ++ offsetChars d.offset := by
    rw [chars]
    simp only [← List.append_assoc, ← List.cons_append]
    exact ⟨_, rfl⟩
  rw [whole, List.getLast?_append_of_ne_nil _ (offsetChars_ne_nil d.offset)]

/-! ## Dates -/

/-- The characters of what is written stand in the order of the fields. -/
lemma toList_render (d : DateTime) : (render d).toList = chars d.toDateFields :=
  String.toList_ofList

/-- What is written tells dates apart. -/
lemma render_inj {d e : DateTime} : render e = render d ↔ e = d := by
  refine ⟨fun same => ?_, congrArg render⟩
  have read := ofString?_render e
  rw [same, ofString?_render, Option.some.injEq] at read
  exact read.symm

/-- A date that is read has the fields that its text has. -/
lemma fields?_of_ofString? {text : String} {d : DateTime} (read : ofString? text = some d) :
    fields? text.toList = some d.toDateFields := by
  rw [ofString?] at read
  split at read
  next fields spelled =>
    split at read
    next =>
      cases read
      exact spelled
    next => cases read
  next => cases read

/-- What was read as a date is written so that it is read as the same moment with the same offset.
This one form depends on nothing else: it is the same for two dates exactly if moment and offset
are, and it is written again where it was read. It ends in Z exactly if the offset is zero. Of the
fractions of 0, 3, 6 or 9 digits with which a text can be read as the moment it has the shortest. -/
theorem written_without_loss (d : DateTime) :
    Field.date (.string (render d)) = .ok d ∧
    (Field.date (.string (render d))).map render = .ok (render d) ∧
    (∀ e : DateTime, render e = render d ↔ e.instant = d.instant ∧ e.offset = d.offset) ∧
    ((render d).toList.getLast? = some 'Z' ↔ d.offset = 0) ∧
    fractionWidth (render d).toList ∈ [0, 3, 6, 9] ∧
    ∀ text e, Field.date (.string text) = .ok e → e.instant = d.instant →
      fractionWidth text.toList ∈ [0, 3, 6, 9] →
      fractionWidth (render d).toList ≤ fractionWidth text.toList := by
  obtain ⟨_, _, _, _, _, _, _, _, small, _⟩ := d.isValid
  rw [toList_render, getLast?_chars, fractionWidth_chars]
  refine ⟨Field.date_render d, ?_, fun e => ?_, getLast?_offsetChars d.offset,
    shortestWidth_mem d.nanosecond, fun text e read moment allowed => ?_⟩
  · rw [Field.date_render, Except.map]
  · rw [render_inj]
    refine ⟨fun same => ?_, fun ⟨moment, offset⟩ => eq_of_instant moment offset⟩
    rw [same]
    exact ⟨rfl, rfl⟩
  · obtain ⟨_, ⟨⟩, spelled⟩ := Field.date_eq_ok.mp read
    have dvd := pow_dvd_nanosecond (fields?_of_ofString? spelled)
    rw [(nanosecond_unique moment).1] at dvd
    exact shortestWidth_le small allowed dvd

example : (ofString? "2016-12-31t23:59:60.5000-00:00").map render =
    some "2016-12-31T23:59:60.500Z" := by decide

end SealedMail.DateTime
