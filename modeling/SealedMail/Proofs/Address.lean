import Mathlib.Data.List.Sort
import Mathlib.Tactic.Lemma
import SealedMail.Address.Set

/-!
# Addresses read back, and sets of them

The text of an address spells the address (`ofString?_text`): its parts hold no mark but the one
between them, and no character that reading would change. So addresses are equal where their texts
are (`text_inj`), a set has exactly the members that were inserted (`AddressSet.mem_insert`), and it
is determined by them (`AddressSet.eq_of_mem_iff`).
-/

namespace SealedMail

namespace Address

/-- A character that can stand in an address. -/
def IsPart (c : Char) : Prop := isPlain c = true ∨ c = '.' ∨ c = '-' ∨ c = '_'

/-- An element that is no separator stands in one of the pieces. -/
lemma exists_mem_splitOnP {p : Char → Bool} {cs : List Char} {c : Char} (mem : c ∈ cs)
    (h : p c = false) : ∃ run ∈ cs.splitOnP p, c ∈ run := by
  induction cs with
  | nil => exact absurd mem List.not_mem_nil
  | cons d cs ih =>
    rw [List.splitOnP_cons_eq_if_modifyHead]
    split
    next separator =>
      rcases List.mem_cons.mp mem with rfl | mem
      · exact absurd h (by simp [separator])
      · obtain ⟨run, hrun, hc⟩ := ih mem
        exact ⟨run, List.mem_cons_of_mem _ hrun, hc⟩
    next =>
      obtain ⟨first, others, split⟩ := List.exists_cons_of_ne_nil (List.splitOnP_ne_nil p cs)
      rw [split, List.modifyHead_cons]
      rcases List.mem_cons.mp mem with rfl | mem
      · exact ⟨c :: first, by simp, by simp⟩
      · obtain ⟨run, hrun, hc⟩ := ih mem
        rw [split] at hrun
        rcases List.mem_cons.mp hrun with rfl | hrun
        · exact ⟨d :: run, by simp, List.mem_cons_of_mem _ hc⟩
        · exact ⟨run, List.mem_cons_of_mem _ hrun, hc⟩

/-- In a text of runs every character is plain or a separator. -/
lemma isPlain_of_isRuns {p : Char → Bool} {cs : List Char} (h : isRuns p cs = true) {c : Char}
    (mem : c ∈ cs) : isPlain c = true ∨ p c = true := by
  cases separator : p c with
  | true => exact .inr rfl
  | false =>
    obtain ⟨run, hrun, hc⟩ := exists_mem_splitOnP mem separator
    have whole := List.all_eq_true.mp h run hrun
    rw [Bool.and_eq_true] at whole
    exact .inl (List.all_eq_true.mp whole.2 c hc)

/-- The characters of a username may stand in an address. -/
lemma isPart_of_isUsername {cs : List Char} (h : isUsername cs = true) {c : Char} (mem : c ∈ cs) :
    IsPart c := by
  rw [isUsername, Bool.and_eq_true] at h
  rcases isPlain_of_isRuns h.2 mem with plain | separator
  · exact .inl plain
  · simp only [Bool.or_eq_true, decide_eq_true_eq] at separator
    rcases separator with (dot | hyphen) | underscore
    · exact .inr (.inl dot)
    · exact .inr (.inr (.inl hyphen))
    · exact .inr (.inr (.inr underscore))

/-- The characters of a domain may stand in an address. -/
lemma isPart_of_isDomain {cs : List Char} (h : isDomain cs = true) {c : Char} (mem : c ∈ cs) :
    IsPart c := by
  simp only [isDomain, Bool.and_eq_true] at h
  obtain ⟨⟨_, labels⟩, _⟩ := h
  by_cases dot : c = '.'
  · exact .inr (.inl dot)
  · obtain ⟨label, hlabel, hc⟩ := exists_mem_splitOnP (p := (· = '.')) mem (by simp [dot])
    have runs := List.all_eq_true.mp labels label hlabel
    rw [isLabel, Bool.and_eq_true] at runs
    rcases isPlain_of_isRuns runs.2 hc with plain | hyphen
    · exact .inl plain
    · exact .inr (.inr (.inl (by simpa using hyphen)))

/-- The characters of the username of an address may stand in one. -/
lemma isPart_username (a : Address) : ∀ c ∈ a.username.toList, IsPart c := fun _ mem =>
  isPart_of_isUsername a.username_valid mem

/-- The characters of the domain of an address may stand in one. -/
lemma isPart_domain (a : Address) : ∀ c ∈ a.domain.toList, IsPart c := fun _ mem =>
  isPart_of_isDomain a.domain_valid mem

/-- Neither the mark between the parts nor the Kelvin sign stands in an address. -/
lemma IsPart.ne {c d : Char} (h : IsPart c) (plain : isPlain d = false)
    (other : d ≠ '.' ∧ d ≠ '-' ∧ d ≠ '_') : c ≠ d := by
  rintro rfl
  rcases h with h | h | h | h
  · exact absurd h (by simp [plain])
  · exact other.1 h
  · exact other.2.1 h
  · exact other.2.2 h

/-- What may stand in an address is no capital letter. -/
lemma IsPart.lower_eq {c : Char} (h : IsPart c) : lower c = c := by
  have kelvin : c ≠ '\u212a' := h.ne (by decide) (by decide)
  have notUpper : ¬(c.val ≥ 'A'.val ∧ c.val ≤ 'Z'.val) := by
    rintro ⟨low, high⟩
    rcases h with plain | rfl | rfl | rfl
    · rw [isPlain] at plain
      simp only [Bool.or_eq_true, Bool.and_eq_true, decide_eq_true_eq, Char.le_def,
        UInt32.le_iff_toNat_le, ge_iff_le] at plain low high
      have upper : 'A'.val.toNat = 65 ∧ 'Z'.val.toNat = 90 := by decide
      have others : 'a'.val.toNat = 97 ∧ '9'.val.toNat = 57 := by decide
      omega
    · exact absurd low (by decide)
    · exact absurd low (by decide)
    · exact absurd high (by decide)
  rw [lower, if_neg kelvin]
  exact dif_neg notUpper

/-- What may stand in an address is as it is in small letters. -/
lemma map_lower {cs : List Char} (h : ∀ c ∈ cs, IsPart c) : cs.map lower = cs := by
  calc cs.map lower
    _ = cs.map id := List.map_congr_left fun c hc => (h c hc).lower_eq
    _ = cs := by simp

/-- The mark between username and domain stands in neither of them. -/
lemma not_mark {cs : List Char} (part : ∀ c ∈ cs, IsPart c) :
    ∀ c ∈ cs, decide (c = '#') = false := fun c hc =>
  decide_eq_false ((part c hc).ne (by decide) (by decide))

/-- The text of an address is username, mark and domain. -/
lemma toList_text (a : Address) : a.text.toList = a.username.toList ++ '#' :: a.domain.toList := by
  simp [text, String.toList_append]

/-- The mark divides the text into the parts. -/
lemma splitOnP_text (a : Address) :
    a.text.toList.splitOnP (· = '#') = [a.username.toList, a.domain.toList] := by
  rw [toList_text, List.splitOnP_append_cons_of_forall_mem (not_mark a.isPart_username) '#'
    (by decide), List.splitOnP_eq_singleton (not_mark a.isPart_domain)]

/-- An address is read back from its text. -/
@[simp]
theorem ofString?_text (a : Address) : ofString? a.text = some a := by
  simp [ofString?, splitOnP_text, ofParts?, map_lower a.isPart_username,
    map_lower a.isPart_domain, a.username_valid, a.domain_valid]

/-- Addresses with the same text are the same. -/
lemma text_inj {a b : Address} : a.text = b.text ↔ a = b := by
  refine ⟨fun h => ?_, congrArg text⟩
  have read := ofString?_text a
  rw [h, ofString?_text b] at read
  exact (Option.some.inj read).symm

/-- No address has an empty text. -/
@[simp]
lemma isEmpty_text (a : Address) : a.text.isEmpty = false := by
  have ne : a.text ≠ "" := by
    intro empty
    have read := ofString?_text a
    rw [empty] at read
    exact absurd read (by simp [ofString?])
  simpa [String.isEmpty_iff] using ne

end Address

namespace AddressSet

/-- The list has the address that was placed, and what it had before. -/
lemma mem_place_iff {a x : Address} {l : List Address} : x ∈ place a l ↔ x = a ∨ x ∈ l := by
  refine ⟨mem_place, fun h => ?_⟩
  induction l with
  | nil => simpa [place] using h
  | cons b rest ih =>
    rw [place]
    split
    next same =>
      have eq : a = b := Address.text_inj.mp same
      rcases h with rfl | h
      · simp [eq]
      · exact h
    next =>
      split
      next => simpa using h
      next =>
        rcases h with rfl | h
        · exact List.mem_cons_of_mem _ (ih (.inl rfl))
        · rcases List.mem_cons.mp h with rfl | h
          · simp
          · exact List.mem_cons_of_mem _ (ih (.inr h))

/-- The empty set has no address. -/
@[simp]
lemma not_mem_empty (a : Address) : a ∉ empty := List.not_mem_nil

/-- A set has one more member after one is inserted. -/
@[simp]
theorem mem_insert {s : AddressSet} {a x : Address} : x ∈ s.insert a ↔ x = a ∨ x ∈ s :=
  mem_place_iff

/-- The addresses of a set are those in its list. -/
lemma mem_toList {s : AddressSet} {a : Address} : a ∈ s.toList ↔ a ∈ s := Iff.rfl

/-- A set made of a list has the addresses of the list. -/
lemma mem_ofList {l : List Address} {a : Address} : a ∈ ofList l ↔ a ∈ l := by
  have collected : ∀ s : AddressSet, a ∈ l.foldl insert s ↔ a ∈ s ∨ a ∈ l := by
    induction l with
    | nil => simp
    | cons b rest ih =>
      intro s
      rw [List.foldl_cons, ih, mem_insert, List.mem_cons, or_assoc, or_left_comm]
  rw [ofList, collected]
  simp

instance : Std.Asymm (α := Address) (· < ·) := ⟨fun _ _ => List.lt_asymm⟩

/-- Sets with the same addresses are the same, as each of them is in order. -/
lemma eq_of_mem_iff {s t : AddressSet} (h : ∀ a, a ∈ s ↔ a ∈ t) : s = t := by
  obtain ⟨l, sorted⟩ := s
  obtain ⟨m, sorted'⟩ := t
  have same : l = m := sorted.eq_of_mem_iff sorted' h
  subst same
  rfl

end AddressSet

end SealedMail
