import SealedMail.Proofs.Address.Spelling
import SealedMail.Proofs.Bytes
import SealedMail.Proofs.Schema

/-!
# The written form of an address

However an address was spelled where it was read, it is written in one form, and every reader takes
this form for the same address (`Address.written_canonically`). The form has one mark, between the
two parts of the address, and one byte for each character (`Address.isCanonical`).
-/

namespace SealedMail.Address

variable {a b : Address} {s : String}

/-- What is written for an address. -/
structure IsCanonical (a : Address) : Prop where
  /-- Reading the text gives the address. -/
  readBack : ofString? a.text = some a
  joined : a.text = a.username ++ "#" ++ a.domain
  /-- The parts of the address are those into which the mark divides the text. -/
  divided : a.text.toList.splitOnP (· = '#') = [a.username.toList, a.domain.toList]
  oneMark : a.text.toList.count '#' = 1
  usernameSize :
    1 ≤ (Bytes.ofString a.username).length ∧ (Bytes.ofString a.username).length ≤ 64
  domainSize : (Bytes.ofString a.domain).length ≤ 255
  alphabet : ∀ x ∈ Bytes.ofString a.username ++ Bytes.ofString a.domain,
    ∃ c, IsPart c ∧ x = c.toUInt8

/-! ## Bytes -/

/-- What may stand in an address takes one byte. -/
lemma utf8Size_of_isPart {c : Char} (h : IsPart c) : c.utf8Size = 1 := by
  have ascii := isAscii_of_isPart h
  rw [Char.isAscii, decide_eq_true_eq] at ascii
  apply Char.utf8Size_eq_one_iff.mpr
  rw [UInt32.le_iff_toNat_le]
  exact Nat.le_of_lt_succ ascii

/-- A part of an address has one byte for each character. -/
lemma bytes_of_isPart (part : ∀ c ∈ s.toList, IsPart c) :
    Bytes.ofString s = s.toList.map Char.toUInt8 := by
  conv_lhs => rw [← String.ofList_toList (s := s)]
  apply Bytes.ofString_eq_map
  intro c mem
  exact utf8Size_of_isPart (part c mem)

/-- A text of such characters has as many bytes as characters. -/
lemma size_of_isPart (part : ∀ c ∈ s.toList, IsPart c) :
    (Bytes.ofString s).length = s.toList.length := by
  rw [bytes_of_isPart part, List.length_map]

/-- Each byte of such a text is one of its characters. -/
lemma exists_isPart_of_mem (part : ∀ c ∈ s.toList, IsPart c) {x : UInt8}
    (mem : x ∈ Bytes.ofString s) : ∃ c, IsPart c ∧ x = c.toUInt8 := by
  rw [bytes_of_isPart part] at mem
  obtain ⟨c, inside, rfl⟩ := List.mem_map.mp mem
  exact ⟨c, part c inside, rfl⟩

/-- Every address has a username. -/
lemma username_ne_nil (a : Address) : a.username.toList ≠ [] := by
  intro empty
  have valid := a.username_valid
  rw [empty] at valid
  cases valid

/-! ## The written form -/

/-- The mark stands in an address exactly once. -/
lemma count_mark_text (a : Address) : a.text.toList.count '#' = 1 := by
  have none {cs : List Char} (part : ∀ c ∈ cs, IsPart c) : cs.count '#' = 0 := by
    apply List.count_eq_zero_of_not_mem
    intro mem
    exact of_decide_eq_false (not_mark part '#' mem) rfl
  rw [toList_text, List.count_append, List.count_cons_self, none a.isPart_username,
    none a.isPart_domain]

/-- Every address is written in the canonical form. -/
lemma isCanonical (a : Address) : IsCanonical a where
  readBack := ofString?_text a
  joined := rfl
  divided := splitOnP_text a
  oneMark := count_mark_text a
  usernameSize := by
    rw [size_of_isPart a.isPart_username]
    exact ⟨List.length_pos_of_ne_nil a.username_ne_nil, (isUsername_iff.mp a.username_valid).length⟩
  domainSize := by
    rw [size_of_isPart a.isPart_domain]
    exact (isDomain_iff.mp a.domain_valid).1
  alphabet := by
    intro x mem
    rcases List.mem_append.mp mem with user | domain
    · exact exists_isPart_of_mem a.isPart_username user
    · exact exists_isPart_of_mem a.isPart_domain domain

/-- Of two different addresses one comes before the other. -/
lemma not_lt_iff_eq : ¬b < a ∧ ¬a < b ↔ b = a := by
  refine ⟨?_, ?_⟩
  · rintro ⟨notBefore, notBehind⟩
    apply text_inj.mp
    apply String.toList_injective
    exact List.le_antisymm (List.not_lt.mp notBehind) (List.not_lt.mp notBefore)
  · rintro rfl
    exact ⟨List.lt_irrefl _, List.lt_irrefl _⟩

/-- Every address has one written form. Whatever is read as the address, as a text or in a document,
is this form in other letters, and the form itself is read as the address. So neither the name of a
field nor a member of an ordered set can tell an address from the one that is read from its text. -/
theorem written_canonically (a : Address) :
    IsCanonical a ∧
    (∀ input, ofString? input = some a ↔ input.map lower = a.text) ∧
    (∀ json, Field.address json = .ok a ↔
      ∃ input, json = .string input ∧ input.map lower = a.text) ∧
    (Json.ofString? (Json.string a.text).render).map Field.address = some (.ok a) ∧
    ∀ b : Address,
      (ofString? b.text = some a ↔ b = a) ∧ (b.text = a.text ↔ b = a) ∧
        (¬b < a ∧ ¬a < b ↔ b = a) := by
  have spelled (input : String) : ofString? input = some a ↔ input.map lower = a.text :=
    ofString?_eq_some.trans eq_comm
  refine ⟨isCanonical a, spelled, fun json => ?_, ?_, fun b => ⟨?_, text_inj, not_lt_iff_eq⟩⟩
  · rw [Field.address_eq_ok]
    exact exists_congr fun input => and_congr_right fun _ => spelled input
  · rw [(Json.Fits.string a.text).ofString?_render, Option.map_some, Field.address_text]
  · rw [ofString?_text, Option.some.injEq]

end SealedMail.Address
