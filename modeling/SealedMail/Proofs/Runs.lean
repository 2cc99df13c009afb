import Mathlib.Tactic.Lemma

/-!
# Where a run ends

Readers of digits and of names take a run of characters of one kind from the front of a text. Such
a run ends at the first character of another kind, or with the text.
-/

namespace SealedMail

variable {α : Type} {p : α → Bool} {run rest : List α}

/-- A run is taken up to the first element of another kind. -/
lemma takeWhile_run (inside : ∀ c ∈ run, p c = true) (stop : ∀ c ∈ rest.head?, p c = false) :
    (run ++ rest).takeWhile p = run := by
  rw [List.takeWhile_append_of_pos inside]
  cases rest with
  | nil => simp
  | cons c rest => simp [stop c (by simp)]

/-- What is left of a run begins with the first element of another kind. -/
lemma dropWhile_run (inside : ∀ c ∈ run, p c = true) (stop : ∀ c ∈ rest.head?, p c = false) :
    (run ++ rest).dropWhile p = rest := by
  rw [List.dropWhile_append_of_pos inside]
  cases rest with
  | nil => rfl
  | cons c rest => simp [stop c (by simp)]

end SealedMail
