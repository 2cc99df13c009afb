import SealedMail.Proofs.Address

/-!
# How addresses are spelled

The grammar of addresses (`Address.IsSpelling`), and that reading keeps to it. A text is read as an
address exactly if its lower case is the text of the address (`Address.ofString?_eq_some`), and the
texts of addresses are the ones of the grammar (`Address.exists_address_iff`). It does not matter
which lower case a character outside ASCII has (`Address.ofStringWith_eq`), but for the Kelvin sign:
its lower case is the letter `k` (`Address.kelvin_sign_read_as_k`).
-/

namespace SealedMail.Address

/-! ## The grammar -/

/-- A small letter. -/
def IsSmall (c : Char) : Prop := 'a' ≤ c ∧ c ≤ 'z'

/-- Small letters and digits, at least one. -/
def IsRun (cs : List Char) : Prop := cs ≠ [] ∧ ∀ c ∈ cs, IsSmall c ∨ '0' ≤ c ∧ c ≤ '9'

/-- Runs of small letters and digits, with one separator between two runs. -/
inductive IsRuns (separators : List Char) : List Char → Prop where
  | last {run} :
    IsRun run →
    IsRuns separators run
  | more {run separator rest} :
    IsRun run →
    separator ∈ separators →
    IsRuns separators rest →
    IsRuns separators (run ++ separator :: rest)

/-- The part of an address in front of its mark. -/
structure IsUser (cs : List Char) : Prop where
  length : cs.length ≤ 64
  runs : IsRuns ['.', '-', '_'] cs

/-- One label of a domain. -/
structure IsHostLabel (cs : List Char) : Prop where
  length : cs.length ≤ 63
  runs : IsRuns ['-'] cs

/-- Labels with dots between them, the last of which starts with a letter. -/
inductive IsLabels : List Char → Prop where
  | last {c rest} :
    IsHostLabel (c :: rest) →
    IsSmall c →
    IsLabels (c :: rest)
  | more {label rest} :
    IsHostLabel label →
    IsLabels rest →
    IsLabels (label ++ '.' :: rest)

/-- The part of an address behind its mark: two labels or more. -/
def IsHost (cs : List Char) : Prop :=
  cs.length ≤ 255 ∧ ∃ label rest, cs = label ++ '.' :: rest ∧ IsHostLabel label ∧ IsLabels rest

/-- The text of an address. -/
def IsSpelling (cs : List Char) : Prop :=
  ∃ user host, cs = user ++ '#' :: host ∧ IsUser user ∧ IsHost host

/-! ## Splitting -/

variable {p : Char → Bool} {cs run rest : List Char} {c separator : Char} {separators : List Char}

/-- A text is split at the first separator, if there is one. -/
lemma exists_separator (p : Char → Bool) (cs : List Char) :
    (∀ c ∈ cs, p c = false) ∨
      ∃ run separator rest, cs = run ++ separator :: rest ∧ (∀ c ∈ run, p c = false) ∧
        p separator = true := by
  induction cs with
  | nil => exact .inl (List.forall_mem_nil _)
  | cons first cs ih =>
    cases h : p first with
    | true => exact .inr ⟨[], first, cs, rfl, List.forall_mem_nil _, h⟩
    | false =>
      obtain none | ⟨run, separator, rest, rfl, inside, ends⟩ := ih
      · exact .inl (List.forall_mem_cons.mpr ⟨h, none⟩)
      · exact .inr ⟨first :: run, separator, rest, rfl, List.forall_mem_cons.mpr ⟨h, inside⟩, ends⟩

/-- A text is built up from its end, by a run and a separator at a time. -/
@[elab_as_elim]
lemma separated_induction (p : Char → Bool) {motive : List Char → Prop}
    (last : ∀ run, (∀ c ∈ run, p c = false) → motive run)
    (more : ∀ run separator rest, (∀ c ∈ run, p c = false) → p separator = true → motive rest →
      motive (run ++ separator :: rest))
    (cs : List Char) : motive cs := by
  -- on the length, since what is behind a separator is shorter
  induction h : cs.length using Nat.strongRecOn generalizing cs with
  | ind n ih =>
    obtain none | ⟨run, separator, rest, rfl, inside, ends⟩ := exists_separator p cs
    · exact last cs none
    · refine more run separator rest inside ends (ih rest.length ?_ rest rfl)
      rw [← h, List.length_append, List.length_cons]
      omega

/-- Plain characters are small letters and digits. -/
lemma isPlain_iff : isPlain c = true ↔ IsSmall c ∨ '0' ≤ c ∧ c ≤ '9' := by
  simp only [isPlain, IsSmall, Bool.or_eq_true, Bool.and_eq_true, decide_eq_true_eq]

/-- The check of a run is what a run is. -/
lemma isRun_iff : (!run.isEmpty && run.all isPlain) = true ↔ IsRun run := by
  simp only [IsRun, Bool.and_eq_true, Bool.not_eq_true', List.isEmpty_eq_false_iff,
    List.all_eq_true, isPlain_iff]

/-- Without a separator there is a single run. -/
lemma isRuns_of_forall (inside : ∀ c ∈ run, p c = false) : isRuns p run = true ↔ IsRun run := by
  rw [isRuns, List.splitOnP_eq_singleton inside, List.all_cons, List.all_nil, Bool.and_true,
    isRun_iff]

/-- The first separator ends the first run, and more runs come after it. -/
lemma isRuns_append (inside : ∀ c ∈ run, p c = false) (ends : p separator = true)
    (rest : List Char) :
    isRuns p (run ++ separator :: rest) = true ↔ IsRun run ∧ isRuns p rest = true := by
  rw [isRuns, List.splitOnP_append_cons_of_forall_mem inside separator ends, List.all_cons,
    Bool.and_eq_true, isRun_iff]
  rfl

/-- The characters between separators are those of the runs. -/
lemma isRuns_iff (same : ∀ c, p c = true ↔ c ∈ separators)
    (apart : separators.any isPlain = false) : isRuns p cs = true ↔ IsRuns separators cs := by
  have inside {run : List Char} (h : IsRun run) : ∀ c ∈ run, p c = false := by
    intro c mem
    rw [← Bool.not_eq_true, same]
    intro separates
    exact List.any_eq_false.mp apart c separates (isPlain_iff.mpr (h.2 c mem))
  refine ⟨fun runs => ?_, fun runs => ?_⟩
  · induction cs using separated_induction p with
    | last run none => exact .last ((isRuns_of_forall none).mp runs)
    | more run separator rest before ends ih =>
      obtain ⟨first, later⟩ := (isRuns_append before ends rest).mp runs
      exact .more first ((same separator).mp ends) (ih later)
  · induction runs with
    | last run => exact (isRuns_of_forall (inside run)).mpr run
    | more run separates _ ih =>
      exact (isRuns_append (inside run) ((same _).mpr separates) _).mpr ⟨run, ih⟩

/-! ## The parts -/

/-- The check of a username is the grammar of usernames. -/
lemma isUsername_iff : isUsername cs = true ↔ IsUser cs := by
  have runs : isRuns (fun c => c = '.' || c = '-' || c = '_') cs = true ↔
      IsRuns ['.', '-', '_'] cs :=
    isRuns_iff (by simp [or_assoc]) (by decide)
  rw [isUsername, Bool.and_eq_true, decide_eq_true_eq, runs]
  exact ⟨fun h => ⟨h.1, h.2⟩, fun h => ⟨h.length, h.runs⟩⟩

/-- The check of a label is the grammar of labels. -/
lemma isLabel_iff : isLabel cs = true ↔ IsHostLabel cs := by
  have runs : isRuns (· = '-') cs = true ↔ IsRuns ['-'] cs :=
    isRuns_iff (by simp) (by decide)
  rw [isLabel, Bool.and_eq_true, decide_eq_true_eq, runs]
  exact ⟨fun h => ⟨h.1, h.2⟩, fun h => ⟨h.length, h.runs⟩⟩

/-- No dot stands in a label. -/
lemma not_dot_of_isLabel (h : isLabel cs = true) : ∀ c ∈ cs, decide (c = '.') = false := by
  rw [isLabel, Bool.and_eq_true] at h
  intro c mem
  rcases isPlain_of_isRuns h.2 mem with plain | hyphen
  · exact decide_eq_false (by rintro rfl; exact absurd plain (by decide))
  · exact decide_eq_false (by rintro rfl; exact absurd hyphen (by decide))

/-- The check of the last label looks at its first character. -/
lemma startsWithLetter_iff : startsWithLetter cs = true ↔ ∃ c rest, cs = c :: rest ∧ IsSmall c := by
  cases cs with
  | nil => simp [startsWithLetter]
  | cons c rest => simp [startsWithLetter, IsSmall]

/-- The labels between the dots of a text, the last of which starts with a letter. -/
def areLabels (cs : List Char) : Bool :=
  (cs.splitOnP (· = '.')).all isLabel &&
    ((cs.splitOnP (· = '.')).getLast?.map startsWithLetter).getD false

/-- Without a dot there is a single label, which is the last one as well. -/
lemma areLabels_of_forall (inside : ∀ c ∈ run, decide (c = '.') = false) :
    areLabels run = true ↔ isLabel run = true ∧ startsWithLetter run = true := by
  simp [areLabels, List.splitOnP_eq_singleton inside]

/-- The first dot ends the first label, and more labels come after it. -/
lemma areLabels_append (inside : ∀ c ∈ run, decide (c = '.') = false) (rest : List Char) :
    areLabels (run ++ '.' :: rest) = true ↔ isLabel run = true ∧ areLabels rest = true := by
  obtain ⟨first, others, split⟩ :=
    List.exists_cons_of_ne_nil (List.splitOnP_ne_nil (fun c => decide (c = '.')) rest)
  simp only [areLabels, List.splitOnP_append_cons_of_forall_mem inside '.' (by decide), split,
    List.all_cons, List.getLast?_cons_cons, Bool.and_eq_true, and_assoc]

/-- The check of all labels is the grammar of labels with dots between them. -/
lemma areLabels_iff : areLabels cs = true ↔ IsLabels cs := by
  refine ⟨fun labels => ?_, fun labels => ?_⟩
  · induction cs using separated_induction (fun c => decide (c = '.')) with
    | last label none =>
      obtain ⟨label, starts⟩ := (areLabels_of_forall none).mp labels
      obtain ⟨c, rest, rfl, small⟩ := startsWithLetter_iff.mp starts
      exact .last (isLabel_iff.mp label) small
    | more label dot rest before ends ih =>
      obtain rfl := of_decide_eq_true ends
      obtain ⟨first, later⟩ := (areLabels_append before rest).mp labels
      exact .more (isLabel_iff.mp first) (ih later)
  · induction labels with
    | last label small =>
      have isLabel := isLabel_iff.mpr label
      exact (areLabels_of_forall (not_dot_of_isLabel isLabel)).mpr
        ⟨isLabel, startsWithLetter_iff.mpr ⟨_, _, rfl, small⟩⟩
    | more label _ ih =>
      have isLabel := isLabel_iff.mpr label
      exact (areLabels_append (not_dot_of_isLabel isLabel) _).mpr ⟨isLabel, ih⟩

/-- The check of a domain is made of one of its length, one for a dot, and one of the labels. -/
lemma isDomain_eq :
    isDomain cs = (cs.length ≤ 255 && 2 ≤ (cs.splitOnP (· = '.')).length && areLabels cs) := by
  simp only [isDomain, areLabels, Bool.and_assoc]

/-- The check of a domain is the grammar of domains. -/
lemma isDomain_iff : isDomain cs = true ↔ IsHost cs := by
  simp only [isDomain_eq, Bool.and_eq_true, decide_eq_true_eq, and_assoc]
  refine and_congr_right fun _ => ⟨fun ⟨two, labels⟩ => ?_, ?_⟩
  · obtain none | ⟨label, dot, rest, rfl, before, ends⟩ :=
      exists_separator (fun c => decide (c = '.')) cs
    · rw [List.splitOnP_eq_singleton none] at two
      exact absurd two (by simp)
    · obtain rfl := of_decide_eq_true ends
      obtain ⟨first, later⟩ := (areLabels_append before rest).mp labels
      exact ⟨label, rest, rfl, isLabel_iff.mp first, areLabels_iff.mp later⟩
  · rintro ⟨label, rest, rfl, first, later⟩
    have isLabel := isLabel_iff.mpr first
    have before := not_dot_of_isLabel isLabel
    have two : 0 < (rest.splitOnP (· = '.')).length :=
      List.length_pos_of_ne_nil (List.splitOnP_ne_nil _ _)
    refine ⟨?_, (areLabels_append before rest).mpr ⟨isLabel, areLabels_iff.mpr later⟩⟩
    rw [List.splitOnP_append_cons_of_forall_mem before '.' (by decide), List.length_cons]
    omega

/-! ## The mark -/

variable {input : String} {user domain : List Char} {a : Address}

/-- A text falls into two parts if it has one mark. -/
lemma splitOnP_eq_pair_iff : cs.splitOnP (· = '#') = [user, domain] ↔
    cs = user ++ '#' :: domain ∧ (∀ c ∈ user, decide (c = '#') = false) ∧
      ∀ c ∈ domain, decide (c = '#') = false := by
  refine ⟨fun parts => ?_, ?_⟩
  · obtain none | ⟨before, mark, behind, rfl, first, ends⟩ :=
      exists_separator (fun c => decide (c = '#')) cs
    · rw [List.splitOnP_eq_singleton none] at parts
      exact absurd parts (by simp)
    · obtain rfl := of_decide_eq_true ends
      rw [List.splitOnP_append_cons_of_forall_mem first '#' (by decide), List.cons.injEq] at parts
      obtain ⟨rfl, parts⟩ := parts
      obtain none | ⟨more, mark, rest, rfl, second, ends⟩ :=
        exists_separator (fun c => decide (c = '#')) behind
      · rw [List.splitOnP_eq_singleton none, List.cons.injEq] at parts
        obtain ⟨rfl, -⟩ := parts
        exact ⟨rfl, first, none⟩
      · rw [List.splitOnP_append_cons_of_forall_mem second mark ends, List.cons.injEq] at parts
        exact absurd parts.2 (List.splitOnP_ne_nil _ _)
  · rintro ⟨rfl, first, second⟩
    rw [List.splitOnP_append_cons_of_forall_mem first '#' (by decide),
      List.splitOnP_eq_singleton second]

/-- An address is made of two parts that are its own. -/
lemma ofParts?_eq_some : ofParts? user domain = some a ↔
    a.username.toList = user ∧ a.domain.toList = domain := by
  rw [ofParts?]
  refine ⟨fun read => ?_, ?_⟩
  · split at read
    · split at read
      · cases read
        exact ⟨String.toList_ofList, String.toList_ofList⟩
      · cases read
    · cases read
  · rintro ⟨rfl, rfl⟩
    simp only [a.username_valid, a.domain_valid, String.ofList_toList, dif_pos]

/-- The texts of addresses are the spellings of the grammar. -/
lemma exists_address_iff :
    (∃ a : Address, a.text.toList = cs) ↔ IsSpelling cs := by
  refine ⟨?_, ?_⟩
  · rintro ⟨a, rfl⟩
    exact ⟨_, _, toList_text a, isUsername_iff.mp a.username_valid,
      isDomain_iff.mp a.domain_valid⟩
  · rintro ⟨user, host, rfl, isUser, isHost⟩
    refine ⟨⟨String.ofList user, String.ofList host, ?_, ?_⟩, ?_⟩
    · rw [String.toList_ofList]
      exact isUsername_iff.mpr isUser
    · rw [String.toList_ofList]
      exact isDomain_iff.mpr isHost
    · simp only [toList_text, String.toList_ofList]

/-! ## Letter case -/

/-- Lower-casing in ASCII moves the capital letters up by 32. -/
lemma toNat_toLower (c : Char) :
    c.toLower.toNat = if 65 ≤ c.toNat ∧ c.toNat ≤ 90 then c.toNat + 32 else c.toNat := by
  have bounds : (c.val ≥ 'A'.val ∧ c.val ≤ 'Z'.val) ↔ 65 ≤ c.toNat ∧ c.toNat ≤ 90 :=
    and_congr UInt32.le_iff_toNat_le UInt32.le_iff_toNat_le
  by_cases upper : 65 ≤ c.toNat ∧ c.toNat ≤ 90
  · have shifted : c.toLower.toNat = (c.val + 32).toNat :=
      congrArg Char.toNat (dif_pos (bounds.mpr upper))
    have value : c.val.toNat = c.toNat := rfl
    have gap : (32 : UInt32).toNat = 32 := rfl
    rw [if_pos upper, shifted, UInt32.toNat_add]
    omega
  · rw [if_neg upper]
    exact congrArg Char.toNat (dif_neg (bounds.not.mpr upper))

/-- Lower-casing in ASCII keeps characters in ASCII or outside. -/
lemma isAscii_toLower : c.toLower.isAscii = c.isAscii := by
  rw [Char.isAscii, Char.isAscii, decide_eq_decide, toNat_toLower]
  split <;> omega

/-- Only the Kelvin sign has another lower case here than that of a letter of ASCII. -/
lemma lower_eq_toLower (kelvin : c ≠ '\u212a') : lower c = c.toLower := if_neg kelvin

/-- What is lower-cased into ASCII is in ASCII already, or is the Kelvin sign. -/
lemma isAscii_lower : (lower c).isAscii = true ↔ c.isAscii = true ∨ c = '\u212a' := by
  by_cases kelvin : c = '\u212a'
  · subst kelvin
    decide
  · rw [lower_eq_toLower kelvin, isAscii_toLower, or_iff_left kelvin]

/-- Nothing but the mark is lower-cased to the mark. -/
lemma lower_eq_mark : lower c = '#' ↔ c = '#' := by
  refine ⟨fun h => ?_, by rintro rfl; decide⟩
  by_cases kelvin : c = '\u212a'
  · subst kelvin
    exact absurd h (by decide)
  · rw [lower_eq_toLower kelvin] at h
    have value : c.toLower.toNat = 35 := by rw [h]; rfl
    rw [toNat_toLower] at value
    refine Char.toNat_inj.mp ?_
    change c.toNat = 35
    split at value <;> omega

/-- What may stand in an address is in ASCII. -/
lemma isAscii_of_isPart (h : IsPart c) : c.isAscii = true := by
  rcases h with plain | rfl | rfl | rfl
  · rw [isPlain_iff, IsSmall] at plain
    simp only [Char.le_def, UInt32.le_iff_toNat_le] at plain
    have values : 'z'.val.toNat = 122 ∧ '9'.val.toNat = 57 := by decide
    have value : c.val.toNat = c.toNat := rfl
    rw [Char.isAscii, decide_eq_true_eq]
    omega
  all_goals decide

/-! ## Reading -/

/-- A text spells the address whose text it is in lower case. -/
lemma ofString?_eq_some : ofString? input = some a ↔ a.text = input.map lower := by
  rw [← String.toList_inj, String.toList_map, toList_text, ofString?]
  refine ⟨fun read => ?_, fun spelled => ?_⟩
  · split at read
    next user domain parts =>
      obtain ⟨whole, -, -⟩ := splitOnP_eq_pair_iff.mp parts
      obtain ⟨user_eq, domain_eq⟩ := ofParts?_eq_some.mp read
      rw [whole, user_eq, domain_eq, List.map_append, List.map_cons, lower_eq_mark.mpr rfl]
    next => cases read
  · obtain ⟨user, behind, whole, user_eq, spelled⟩ := List.map_eq_append_iff.mp spelled.symm
    obtain ⟨mark, domain, rfl, mark_eq, domain_eq⟩ := List.map_eq_cons_iff.mp spelled
    obtain rfl := lower_eq_mark.mp mark_eq
    have inside {cs : List Char} (part : ∀ c ∈ cs.map lower, IsPart c) :
        ∀ c ∈ cs, decide (c = '#') = false := fun c hc => decide_eq_false fun marks =>
      of_decide_eq_false (not_mark part _ (List.mem_map_of_mem hc)) (lower_eq_mark.mpr marks)
    have parts : input.toList.splitOnP (· = '#') = [user, domain] := splitOnP_eq_pair_iff.mpr
      ⟨whole, inside fun c hc => a.isPart_username c (user_eq ▸ hc),
        inside fun c hc => a.isPart_domain c (domain_eq ▸ hc)⟩
    rw [parts]
    exact ofParts?_eq_some.mpr ⟨user_eq.symm, domain_eq.symm⟩

/-- A text can be read as an address if its small letters are a spelling. -/
lemma exists_read_iff (input : String) :
    (∃ a, ofString? input = some a) ↔ IsSpelling (input.map lower).toList := by
  rw [← exists_address_iff]
  refine exists_congr fun a => ?_
  rw [ofString?_eq_some, String.toList_inj]

/-! ## Any lower-casing -/

/-- What the lower case of a character may be. The Kelvin sign aside, the lower case of a character
outside ASCII is not written in ASCII alone. -/
inductive IsLowerOf : Char → List Char → Prop where
  | letter {c : Char} :
    c.isAscii = true ∨ c = '\u212a' →
    IsLowerOf c [lower c]
  | other {c d : Char} {cs : List Char} :
    c.isAscii = false →
    c ≠ '\u212a' →
    d ∈ cs →
    d.isAscii = false →
    IsLowerOf c cs

/-- A lower-casing of texts; it may look at what surrounds a character. -/
def IsLowerCase (lowerCase : List Char → List Char) : Prop :=
  ∀ cs, ∃ parts, List.Forall₂ IsLowerOf cs parts ∧ lowerCase cs = parts.flatten

/-- The address that a text spells, with a lower-casing of its own. -/
def ofStringWith (lowerCase : List Char → List Char) (input : String) : Option Address :=
  match input.toList.splitOnP (· = '#') with
  | [user, domain] => ofParts? (lowerCase user) (lowerCase domain)
  | _ => none

/-- The small letter of a character is one of its lower-casings. -/
lemma isLowerOf_lower (c : Char) : IsLowerOf c [lower c] := by
  by_cases h : c.isAscii = true ∨ c = '\u212a'
  · exact .letter h
  · have outside : (lower c).isAscii = false := Bool.eq_false_iff.mpr (isAscii_lower.not.mpr h)
    obtain ⟨notAscii, kelvin⟩ := not_or.mp h
    exact .other (Bool.eq_false_iff.mpr notAscii) kelvin (List.mem_singleton_self _) outside

/-- Lower-casing character by character is one. -/
lemma isLowerCase_map_lower : IsLowerCase (List.map lower) := by
  intro cs
  refine ⟨cs.map fun c => [lower c], ?_, ?_⟩
  · exact List.forall₂_map_right_iff.mpr (List.forall₂_same.mpr fun c _ => isLowerOf_lower c)
  · rw [← List.flatMap_def, List.map_eq_flatMap]

variable {lowerCase : List Char → List Char}

/-- Lower-casings differ only where they leave something that no address holds. -/
lemma IsLowerCase.eq_or (h : IsLowerCase lowerCase) (cs : List Char) :
    lowerCase cs = cs.map lower ∨
      (∃ c ∈ lowerCase cs, c.isAscii = false) ∧ ∃ c ∈ cs.map lower, c.isAscii = false := by
  obtain ⟨parts, lowered, eq⟩ := h cs
  rw [eq]
  clear eq
  induction lowered with
  | nil => exact .inl rfl
  | @cons c part cs parts first _ ih =>
    rw [List.flatten_cons, List.map_cons]
    cases first with
    | letter _ =>
      obtain same | ⟨⟨d, mem, outside⟩, ⟨e, mem', outside'⟩⟩ := ih
      · exact .inl (by rw [same, List.singleton_append])
      · exact .inr ⟨⟨d, List.mem_append_right _ mem, outside⟩,
          ⟨e, List.mem_cons_of_mem _ mem', outside'⟩⟩
    | other notAscii kelvin mem outside =>
      have left : (lower c).isAscii = false :=
        Bool.eq_false_iff.mpr (isAscii_lower.not.mpr (by simp [notAscii, kelvin]))
      exact .inr ⟨⟨_, List.mem_append_left _ mem, outside⟩, ⟨_, List.mem_cons_self, left⟩⟩

/-- No address is made of anything outside ASCII. -/
lemma ofParts?_eq_none
    (outside : (∃ c ∈ user, c.isAscii = false) ∨ ∃ c ∈ domain, c.isAscii = false) :
    ofParts? user domain = none := by
  refine Option.eq_none_iff_forall_ne_some.mpr fun a read => ?_
  obtain ⟨rfl, rfl⟩ := ofParts?_eq_some.mp read
  have inside {cs : List Char} (part : ∀ c ∈ cs, IsPart c) : ¬∃ c ∈ cs, c.isAscii = false := by
    rintro ⟨c, mem, outside⟩
    exact absurd (isAscii_of_isPart (part c mem)) (by simp [outside])
  rcases outside with outside | outside
  · exact inside a.isPart_username outside
  · exact inside a.isPart_domain outside

/-- All lower-casings lead to the same address, or none of them to any. -/
lemma ofParts?_lowerCase (h : IsLowerCase lowerCase) (user domain : List Char) :
    ofParts? (lowerCase user) (lowerCase domain) =
      ofParts? (user.map lower) (domain.map lower) := by
  obtain sameUser | ⟨left, left'⟩ := h.eq_or user
  · obtain sameDomain | ⟨left, left'⟩ := h.eq_or domain
    · rw [sameUser, sameDomain]
    · rw [ofParts?_eq_none (.inr left), ofParts?_eq_none (.inr left')]
  · rw [ofParts?_eq_none (.inl left), ofParts?_eq_none (.inl left')]

/-- Every lower-casing reads the same addresses. -/
lemma ofStringWith_eq (h : IsLowerCase lowerCase) (input : String) :
    ofStringWith lowerCase input = ofString? input := by
  rw [ofString?]
  split
  next user domain parts =>
    rw [ofStringWith, parts]
    exact ofParts?_lowerCase h user domain
  next other =>
    rw [ofStringWith]
    split
    next user domain parts => exact absurd parts (other user domain)
    next => rfl

/-! ## The language of addresses -/

/-- A string is lower-cased character by character. -/
lemma toList_toLower (s : String) : s.toLower.toList = s.toList.map Char.toLower :=
  String.toList_map

/-- A text without a Kelvin sign is lower-cased as in ASCII. -/
lemma map_lower_eq_toLower (kelvin : '\u212a' ∉ input.toList) :
    input.map lower = input.toLower := by
  refine String.toList_inj.mp ?_
  rw [String.toList_map, toList_toLower]
  exact List.map_congr_left fun c mem => lower_eq_toLower (by rintro rfl; exact kelvin mem)

/-- Every character of an address is one of ASCII. -/
lemma isAscii_of_mem_text {c : Char} (mem : c ∈ a.text.toList) : c.isAscii = true := by
  rw [toList_text, List.mem_append, List.mem_cons] at mem
  rcases mem with user | rfl | domain
  · exact isAscii_of_isPart (a.isPart_username _ user)
  · decide
  · exact isAscii_of_isPart (a.isPart_domain _ domain)

/-- What is read as an address is, Kelvin signs aside, written in ASCII. -/
lemma isAscii_of_read (read : ofString? input = some a) {c : Char} (mem : c ∈ input.toList) :
    c.isAscii = true ∨ c = '\u212a' := by
  have lowered : lower c ∈ a.text.toList := by
    rw [ofString?_eq_some.mp read, String.toList_map]
    exact List.mem_map_of_mem mem
  exact isAscii_lower.mp (isAscii_of_mem_text lowered)

/-- A text is read as an address exactly if it is, with small letters for capital ones, of the
grammar, and the address is then this text in small letters. So two texts are the same address
exactly if they differ in letter case only. The Kelvin sign counts as a capital `K` in this; texts
without it have to be ASCII. -/
theorem read_iff_spelled (input : String) :
    (∀ lowerCase, IsLowerCase lowerCase → ofStringWith lowerCase input = ofString? input) ∧
    ((∃ a, ofString? input = some a) ↔ IsSpelling (input.map lower).toList) ∧
    (∀ a, ofString? input = some a ↔ a.text = input.map lower) ∧
    ('\u212a' ∉ input.toList →
      ((∃ a, ofString? input = some a) ↔
        (∀ c ∈ input.toList, c.isAscii = true) ∧ IsSpelling input.toLower.toList) ∧
      ∀ a, ofString? input = some a →
        a.text = input.toLower ∧
        ∀ other : String, '\u212a' ∉ other.toList →
          (ofString? other = some a ↔ other.toLower = input.toLower)) := by
  have grammar := exists_read_iff input
  refine ⟨fun _ h => ofStringWith_eq h input, grammar, fun _ => ofString?_eq_some, fun kelvin => ?_⟩
  have lowered := map_lower_eq_toLower kelvin
  refine ⟨⟨fun ⟨a, read⟩ => ⟨fun c mem => ?_, ?_⟩, fun ⟨_, spelled⟩ => ?_⟩, fun a read => ?_⟩
  · exact (isAscii_of_read read mem).resolve_right (by rintro rfl; exact kelvin mem)
  · rw [← lowered]
    exact grammar.mp ⟨a, read⟩
  · rw [← lowered] at spelled
    exact grammar.mpr spelled
  · have text := ofString?_eq_some.mp read
    rw [lowered] at text
    refine ⟨text, fun other kelvin' => ?_⟩
    rw [ofString?_eq_some, map_lower_eq_toLower kelvin', text, eq_comm]

/-- With the Kelvin sign a text outside ASCII is read as an address of somebody else. -/
theorem kelvin_sign_read_as_k :
    (ofString? "\u212aelly#example.org").map text = some "kelly#example.org" ∧
      ofString? "\u212aelly#example.org" = ofString? "kelly#example.org" ∧
      (¬∀ c ∈ "\u212aelly#example.org".toList, c.isAscii = true) ∧
      "\u212aelly#example.org".toLower ≠ "kelly#example.org".toLower := by
  refine ⟨by decide, by decide, fun ascii => ?_, fun same => ?_⟩
  · exact absurd (ascii '\u212a' (by decide)) (by decide)
  · have letters := congrArg String.toList same
    rw [toList_toLower, toList_toLower] at letters
    exact absurd letters (by decide)

end SealedMail.Address
