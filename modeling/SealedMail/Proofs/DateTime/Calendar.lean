import Mathlib.Order.Monotone.Basic
import Mathlib.Tactic.Lemma
import SealedMail.DateTime.Basic

/-!
# The calendar

A moment and an offset from UTC are those of one date only (`DateTime.eq_of_instant`). The years
divide the days into blocks that follow one another, the months those of a year, and a day lies in
one block (`block_unique`). What is left over is divided by hours, minutes and seconds. A leap
second has the number of the second before it, but more nanoseconds (`nanosecond_unique`).
-/

namespace SealedMail.DateTime

variable {d e : DateTime}

/-- Where each block of numbers ends before the next one starts, a number lies in one block. -/
lemma block_unique {start : Nat → Nat} (mono : Monotone start) {m n i j : Nat}
    (inside : start m + i < start (m + 1)) (inside' : start n + j < start (n + 1))
    (same : start m + i = start n + j) : m = n := by
  rcases lt_trichotomy m n with before | eq | behind
  · have ends : start (m + 1) ≤ start n := mono before
    omega
  · exact eq
  · have ends : start (n + 1) ≤ start m := mono behind
    omega

/-! ## Years -/

def daysInYear (year : Nat) : Nat := if isLeapYear year then 366 else 365

/-- A leap year is a fourth year, but not a hundredth one, unless it is a four hundredth one. -/
lemma daysInYear_eq (year : Nat) :
    daysInYear year + (if year % 100 = 0 then 1 else 0) =
      365 + (if year % 4 = 0 then 1 else 0) + (if year % 400 = 0 then 1 else 0) := by
  have fourth : year % 100 = 0 → year % 4 = 0 := by omega
  have hundredth : year % 400 = 0 → year % 100 = 0 := by omega
  have leap : isLeapYear year = true ↔ year % 4 = 0 ∧ (year % 100 ≠ 0 ∨ year % 400 = 0) := by
    simp [isLeapYear]
  rw [daysInYear, if_congr leap rfl rfl]
  by_cases cycle : year % 400 = 0
  · simp [cycle, hundredth cycle, fourth (hundredth cycle)]
  · by_cases century : year % 100 = 0
    · simp [cycle, century, fourth century]
    · simp only [cycle, century, ne_eq, not_false_eq_true, true_or, and_true, if_false,
        Nat.add_zero]
      split
      · rfl
      · rfl

/-- A step further there is one more multiple exactly if the step was made from one. -/
lemma multiples_succ (k n : Nat) :
    (n + 1 + k) / (k + 1) = (n + k) / (k + 1) + if n % (k + 1) = 0 then 1 else 0 := by
  have multiple : k + 1 ∣ n + k + 1 ↔ n % (k + 1) = 0 := by
    rw [Nat.add_assoc, Nat.dvd_add_self_right, Nat.dvd_iff_mod_eq_zero]
  rw [Nat.add_right_comm, Nat.succ_div, if_congr multiple rfl rfl]

/-- The next year begins after the days of the year. -/
lemma daysBeforeYear_succ (year : Nat) :
    daysBeforeYear (year + 1) = daysBeforeYear year + daysInYear year := by
  have fourth : (year + 1 + 3) / 4 = (year + 3) / 4 + if year % 4 = 0 then 1 else 0 :=
    multiples_succ 3 year
  have hundredth : (year + 1 + 99) / 100 = (year + 99) / 100 + if year % 100 = 0 then 1 else 0 :=
    multiples_succ 99 year
  have cycle : (year + 1 + 399) / 400 = (year + 399) / 400 + if year % 400 = 0 then 1 else 0 :=
    multiples_succ 399 year
  have length := daysInYear_eq year
  -- nothing is cut off where the centuries are taken away
  have fewer : (year + 99) / 100 ≤ 365 * year := by omega
  rw [daysBeforeYear, daysBeforeYear, fourth, hundredth, cycle]
  generalize (year + 3) / 4 = fourths
  generalize (year + 99) / 100 = centuries at fewer ⊢
  omega

/-- Later years begin later. -/
lemma monotone_daysBeforeYear : Monotone daysBeforeYear := by
  apply monotone_nat_of_le_succ
  intro year
  rw [daysBeforeYear_succ]
  exact Nat.le_add_right _ _

/-! ## Months -/

/-- The next month begins after the days of the month. -/
lemma daysBeforeMonth_succ (year month : Nat) :
    daysBeforeMonth year (month + 2) =
      daysBeforeMonth year (month + 1) + daysInMonth year (month + 1) := by
  simp [daysBeforeMonth, List.range_succ]

/-- Later months begin later. -/
lemma monotone_daysBeforeMonth (year : Nat) : Monotone (daysBeforeMonth year) := by
  apply monotone_nat_of_le_succ
  intro month
  cases month with
  | zero => rfl
  | succ month =>
    rw [daysBeforeMonth_succ]
    exact Nat.le_add_right _ _

/-- The twelve months make up the year. -/
lemma daysBeforeMonth_thirteen (year : Nat) : daysBeforeMonth year 13 = daysInYear year := by
  cases leap : isLeapYear year with
  | true => simp [daysBeforeMonth, daysInYear, daysInMonth, List.range_succ, leap]
  | false => simp [daysBeforeMonth, daysInYear, daysInMonth, List.range_succ, leap]

/-! ## Days -/

/-- The days of the year before a date. -/
def daysBefore (d : DateTime) : Nat := daysBeforeMonth d.year d.month + (d.day - 1)

/-- A day comes before the next month begins. -/
lemma daysBefore_lt (d : DateTime) : daysBefore d < daysBeforeMonth d.year (d.month + 1) := by
  obtain ⟨_, positive, _, first, last, _⟩ := d.isValid
  obtain ⟨month, eq⟩ := Nat.exists_eq_add_of_le' positive
  rw [daysBefore, eq, daysBeforeMonth_succ, ← eq]
  omega

/-- A day comes before the year ends. -/
lemma daysBefore_lt_daysInYear (d : DateTime) : daysBefore d < daysInYear d.year := by
  obtain ⟨_, _, last, _⟩ := d.isValid
  calc daysBefore d
    _ < daysBeforeMonth d.year (d.month + 1) := daysBefore_lt d
    _ ≤ daysBeforeMonth d.year 13 := monotone_daysBeforeMonth d.year (Nat.succ_le_succ last)
    _ = daysInYear d.year := daysBeforeMonth_thirteen d.year

/-- Days with the same count are in the same year. -/
lemma year_unique
    (same : daysBeforeYear d.year + daysBefore d = daysBeforeYear e.year + daysBefore e) :
    d.year = e.year := by
  have inside (d : DateTime) :
      daysBeforeYear d.year + daysBefore d < daysBeforeYear (d.year + 1) := by
    rw [daysBeforeYear_succ]
    exact Nat.add_lt_add_left (daysBefore_lt_daysInYear d) _
  exact block_unique monotone_daysBeforeYear (inside d) (inside e) same

/-- Days of a year with the same count are in the same month. -/
lemma month_unique (year : d.year = e.year) (same : daysBefore d = daysBefore e) :
    d.month = e.month := by
  have inside := daysBefore_lt d
  have inside' := daysBefore_lt e
  rw [daysBefore] at inside inside'
  rw [daysBefore, daysBefore] at same
  rw [← year] at inside' same
  exact block_unique (monotone_daysBeforeMonth d.year) inside inside' same

/-- The number of a day is that of one date. -/
lemma date_unique
    (same : daysBeforeYear d.year + daysBefore d = daysBeforeYear e.year + daysBefore e) :
    d.year = e.year ∧ d.month = e.month ∧ d.day = e.day := by
  have year := year_unique same
  rw [year] at same
  have days := Nat.add_left_cancel same
  have month := month_unique year days
  rw [daysBefore, daysBefore, year, month] at days
  obtain ⟨_, _, _, first, _⟩ := d.isValid
  obtain ⟨_, _, _, first', _⟩ := e.isValid
  refine ⟨year, month, ?_⟩
  omega

/-! ## Moments -/

/-- A second is that of one time of one day. -/
lemma time_unique {day day' hour hour' minute minute' second second' : Nat}
    (hours : hour ≤ 23) (hours' : hour' ≤ 23) (minutes : minute ≤ 59) (minutes' : minute' ≤ 59)
    (seconds : second ≤ 59) (seconds' : second' ≤ 59)
    (same : ((day * 24 + hour) * 60 + minute) * 60 + second =
      ((day' * 24 + hour') * 60 + minute') * 60 + second') :
    day = day' ∧ hour = hour' ∧ minute = minute' ∧ second = second' := by
  omega

/-- The nanoseconds tell a leap second from the second before it. -/
lemma nanosecond_unique (moment : d.instant = e.instant) :
    d.nanosecond = e.nanosecond ∧ (d.second = 60 ↔ e.second = 60) := by
  obtain ⟨_, _, _, _, _, _, _, _, small, _⟩ := d.isValid
  obtain ⟨_, _, _, _, _, _, _, _, small', _⟩ := e.isValid
  obtain ⟨-, same⟩ := Instant.mk.inj moment
  split at same
  next leap =>
    split at same
    next leap' => exact ⟨Nat.add_right_cancel same, iff_of_true leap leap'⟩
    next => omega
  next usual =>
    split at same
    next => omega
    next usual' => exact ⟨same, iff_of_false usual usual'⟩

/-- A moment and an offset are those of one date. -/
theorem eq_of_instant (moment : d.instant = e.instant) (offset : d.offset = e.offset) :
    d = e := by
  obtain ⟨_, _, _, _, _, hours, minutes, seconds, _⟩ := d.isValid
  obtain ⟨_, _, _, _, _, hours', minutes', seconds', _⟩ := e.isValid
  obtain ⟨counted, -⟩ := Instant.mk.inj moment
  rw [offset] at counted
  -- with one offset the local clocks show the same
  have sameLocal := Int.ofNat.inj ((Int.sub_left_inj _).mp counted)
  obtain ⟨days, hour, minute, least⟩ := time_unique hours hours' minutes minutes'
    (Nat.min_le_right _ _) (Nat.min_le_right _ _) sameLocal
  obtain ⟨nanosecond, leap⟩ := nanosecond_unique moment
  -- 59 and 60 are counted alike, and told apart by the nanoseconds
  have second : d.second = e.second := by omega
  rw [Nat.add_assoc, Nat.add_assoc] at days
  obtain ⟨year, month, day⟩ := date_unique days
  obtain ⟨⟨_, _, _, _, _, _, _, _⟩, _⟩ := d
  obtain ⟨⟨_, _, _, _, _, _, _, _⟩, _⟩ := e
  simp only [mk.injEq, DateFields.mk.injEq]
  exact ⟨year, month, day, hour, minute, second, nanosecond, offset⟩

end SealedMail.DateTime
