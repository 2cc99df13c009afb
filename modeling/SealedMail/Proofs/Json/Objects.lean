import Mathlib.Tactic.Lemma
import SealedMail.Json.Basic

/-!
# The fields of an object

An object is made by putting fields one after the other into the place of their names. The fields
stay in the order of their names (`pairwise_put`), a field takes the place of the one with its name
(`perm_put`) and is found under it whatever is put beside it (`lookup_put`), and fields that are in
order already are the object (`ofFields_eq`). So an object that is made from a list has the last
field of each name (`field_ofFields`), and fields of different names may be given in any order
(`ofFields_congr`).
-/

namespace SealedMail.Json

/-- The fields are in the order of their names, each name once. -/
abbrev Sorted (fields : List (String × Json)) : Prop := fields.Pairwise (·.1.toList < ·.1.toList)

/-- No field comes in but the one that is put. -/
lemma mem_put {name : String} {value : Json} {fields : List (String × Json)}
    {field : String × Json} (h : field ∈ put name value fields) :
    field = (name, value) ∨ field ∈ fields := by
  induction fields with
  | nil => simpa [put] using h
  | cons head rest ih =>
    obtain ⟨other, old⟩ := head
    rw [put] at h
    split at h
    next =>
      rcases List.mem_cons.mp h with rfl | h
      · exact .inl rfl
      · exact .inr (List.mem_cons_of_mem _ h)
    next =>
      split at h
      next => simpa using h
      next =>
        rcases List.mem_cons.mp h with rfl | h
        · simp
        · rcases ih h with rfl | h
          · exact .inl rfl
          · exact .inr (List.mem_cons_of_mem _ h)

/-- Putting a field keeps the fields in order. -/
lemma pairwise_put (name : String) (value : Json) {fields : List (String × Json)}
    (sorted : Sorted fields) : Sorted (put name value fields) := by
  induction fields with
  | nil => simp [put]
  | cons head rest ih =>
    obtain ⟨other, old⟩ := head
    obtain ⟨first, tail⟩ := List.pairwise_cons.mp sorted
    rw [put]
    split
    next eq =>
      subst eq
      exact List.pairwise_cons.mpr ⟨first, tail⟩
    next ne =>
      split
      next lt =>
        refine List.pairwise_cons.mpr ⟨fun field hfield => ?_, sorted⟩
        rcases List.mem_cons.mp hfield with rfl | hfield
        · exact lt
        · exact List.lt_trans lt (first field hfield)
      next nlt =>
        refine List.pairwise_cons.mpr ⟨fun field hfield => ?_, ih tail⟩
        rcases mem_put hfield with rfl | hfield
        · apply Classical.byContradiction
          intro nle
          exact ne (String.toList_injective
            (List.le_antisymm (List.not_lt.mp nle) (List.not_lt.mp nlt)))
        · exact first field hfield

/-- The first field decides, if it has the name. -/
lemma lookup_cons_eq_ite (name : String) (field : String × Json) (rest : List (String × Json)) :
    (field :: rest).lookup name = if name = field.1 then some field.2 else rest.lookup name := by
  rw [List.lookup_cons]
  by_cases eq : name = field.1
  · simp [eq]
  · simp only [beq_eq_false_iff_ne.mpr eq, if_neg eq]

/-- A field is found under its name, and any other field as before. -/
lemma lookup_put (name other : String) (value : Json) (fields : List (String × Json)) :
    (put name value fields).lookup other =
      if other = name then some value else fields.lookup other := by
  induction fields with
  | nil => simp [put, lookup_cons_eq_ite]
  | cons head rest ih =>
    obtain ⟨first, old⟩ := head
    rw [put]
    split
    next eq =>
      subst eq
      by_cases eq : other = name
      · simp [eq]
      · simp [eq, lookup_cons_eq_ite]
    next ne =>
      split
      next => simp [lookup_cons_eq_ite]
      next =>
        simp only [lookup_cons_eq_ite, ih]
        by_cases eq : other = first
        · have other_ne : other ≠ name := eq ▸ Ne.symm ne
          simp [eq, eq ▸ other_ne]
        · simp [eq]

/-- Of two names of which one comes first, neither is the other. -/
lemma ne_of_toList_lt {name other : String} (lt : name.toList < other.toList) : name ≠ other := by
  rintro rfl
  exact List.lt_irrefl name.toList lt

lemma put_nil (name : String) (value : Json) : put name value [] = [(name, value)] := rfl

/-- A field comes before those with later names. -/
lemma put_cons_of_lt {name other : String} (lt : name.toList < other.toList) (value old : Json)
    (rest : List (String × Json)) :
    put name value ((other, old) :: rest) = (name, value) :: (other, old) :: rest := by
  rw [put, if_neg (ne_of_toList_lt lt), if_pos lt]

/-- A field comes after those with earlier names. -/
lemma put_cons_of_gt {name other : String} (gt : other.toList < name.toList) (value old : Json)
    (rest : List (String × Json)) :
    put name value ((other, old) :: rest) = (other, old) :: put name value rest := by
  have nlt : ¬name.toList < other.toList :=
    fun lt => List.lt_irrefl name.toList (List.lt_trans lt gt)
  rw [put, if_neg (Ne.symm (ne_of_toList_lt gt)), if_neg nlt]

/-- A field that comes after all others is put at the end. -/
lemma put_of_last {name : String} (value : Json) {fields : List (String × Json)}
    (last : ∀ field ∈ fields, field.1.toList < name.toList) :
    put name value fields = fields ++ [(name, value)] := by
  induction fields with
  | nil => rfl
  | cons head rest ih =>
    obtain ⟨first, later⟩ := List.forall_mem_cons.mp last
    rw [put_cons_of_gt first, ih later, List.cons_append]

/-- Putting a field takes the place of the one with its name. -/
lemma perm_put (name : String) (value : Json) {fields : List (String × Json)}
    (sorted : Sorted fields) :
    (put name value fields).Perm ((name, value) :: fields.filter fun field => field.1 ≠ name) := by
  induction fields with
  | nil => exact .refl _
  | cons head rest ih =>
    obtain ⟨other, old⟩ := head
    obtain ⟨first, tail⟩ := List.pairwise_cons.mp sorted
    rw [put]
    split
    next eq =>
      subst eq
      have others : rest.filter (fun field => field.1 ≠ name) = rest :=
        List.filter_eq_self.mpr fun field mem =>
          decide_eq_true (ne_of_toList_lt (first field mem)).symm
      rw [List.filter_cons_of_neg (by simp), others]
    next ne =>
      have kept : decide ((other, old).1 ≠ name) = true := decide_eq_true (Ne.symm ne)
      split
      next lt =>
        have others : rest.filter (fun field => field.1 ≠ name) = rest :=
          List.filter_eq_self.mpr fun field mem =>
            decide_eq_true (ne_of_toList_lt (List.lt_trans lt (first field mem))).symm
        rw [List.filter_cons, if_pos kept, others]
      next =>
        rw [List.filter_cons, if_pos kept]
        exact ((ih tail).cons _).trans (.swap _ _ _)

def putAll (fields : List (String × Json)) (sorted : List (String × Json)) :
    List (String × Json) :=
  fields.foldl (fun sorted field => put field.1 field.2 sorted) sorted

/-- An object is made by putting its fields one after the other. -/
lemma ofFields_eq_putAll (fields : List (String × Json)) :
    ofFields fields = .object (putAll fields []) := rfl

/-- Putting fields keeps them in order. -/
lemma pairwise_putAll (fields : List (String × Json)) {done : List (String × Json)}
    (sorted : Sorted done) : Sorted (putAll fields done) := by
  induction fields generalizing done with
  | nil => exact sorted
  | cons field rest ih => exact ih (pairwise_put field.1 field.2 sorted)

/-- No fields come in but those that are put. -/
lemma mem_putAll {fields done : List (String × Json)} {field : String × Json}
    (h : field ∈ putAll fields done) : field ∈ fields ∨ field ∈ done := by
  induction fields generalizing done with
  | nil => exact .inr h
  | cons first rest ih =>
    rcases ih h with h | h
    · exact .inl (List.mem_cons_of_mem _ h)
    · rcases mem_put h with rfl | h
      · simp
      · exact .inr h

/-- Fields that are in order are put where they are. -/
lemma putAll_of_sorted {fields done : List (String × Json)} (sorted : Sorted (done ++ fields)) :
    putAll fields done = done ++ fields := by
  induction fields generalizing done with
  | nil => simp [putAll]
  | cons field rest ih =>
    have last : ∀ x ∈ done, x.1.toList < field.1.toList := fun x hx =>
      (List.pairwise_append.mp sorted).2.2 x hx field (by simp)
    have put_eq := put_of_last field.2 last
    rw [putAll, List.foldl_cons, put_eq, ← putAll, ih (by simpa using sorted)]
    simp

/-- Fields that are in order are those of the object that is made from them. -/
lemma ofFields_eq {fields : List (String × Json)} (sorted : Sorted fields) :
    ofFields fields = .object fields := by
  rw [ofFields_eq_putAll, putAll_of_sorted (by simpa using sorted)]
  rfl

/-- Fields of different names are all kept. -/
lemma perm_putAll {fields done : List (String × Json)} (sorted : Sorted done)
    (distinct : ((fields ++ done).map Prod.fst).Nodup) :
    (putAll fields done).Perm (fields ++ done) := by
  induction fields generalizing done with
  | nil => exact .refl _
  | cons field rest ih =>
    rw [List.cons_append, List.map_cons, List.nodup_cons, List.map_append,
      List.mem_append] at distinct
    obtain ⟨new, distinct⟩ := distinct
    have kept : (done.filter fun other => other.1 ≠ field.1) = done := by
      refine List.filter_eq_self.mpr fun other mem => decide_eq_true fun eq => new (.inr ?_)
      exact eq ▸ List.mem_map_of_mem mem
    have put := perm_put field.1 field.2 sorted
    rw [kept] at put
    have moved : (rest ++ Json.put field.1 field.2 done).Perm (field :: (rest ++ done)) :=
      (put.append_left rest).trans List.perm_middle
    refine (ih (pairwise_put _ _ sorted) ?_).trans moved
    rw [(moved.map Prod.fst).nodup_iff, List.map_cons, List.nodup_cons, List.map_append,
      List.mem_append]
    exact ⟨new, distinct⟩

/-- An object does not depend on the order in which fields of different names are given. -/
lemma ofFields_congr {fields other : List (String × Json)}
    (distinct : (fields.map Prod.fst).Nodup) (perm : fields.Perm other) :
    ofFields fields = ofFields other := by
  have whole {fields : List (String × Json)} (distinct : (fields.map Prod.fst).Nodup) :
      (putAll fields []).Perm fields := by
    have kept : (putAll fields []).Perm (fields ++ []) :=
      perm_putAll .nil (by rwa [List.append_nil])
    rwa [List.append_nil] at kept
  have same : (putAll fields []).Perm (putAll other []) :=
    (whole distinct).trans (perm.trans (whole ((perm.map Prod.fst).nodup_iff.mp distinct)).symm)
  rw [ofFields_eq_putAll, ofFields_eq_putAll]
  refine congrArg object (same.eq_of_pairwise (fun a b _ _ ab ba => ?_) (pairwise_putAll fields .nil)
    (pairwise_putAll other .nil))
  exact absurd (List.lt_trans ab ba) (List.lt_irrefl _)

/-- An object made from a list of fields has the last of them with a name. -/
lemma field_ofFields (fields : List (String × Json)) (name : String) :
    (ofFields fields).field name = (fields.reverse.lookup name).getD .null := by
  have step (done : List (String × Json)) :
      (putAll fields done).lookup name =
        (fields.reverse.lookup name).or (done.lookup name) := by
    induction fields generalizing done with
    | nil => simp [putAll]
    | cons first rest ih =>
      rw [putAll, List.foldl_cons, ← putAll, ih, lookup_put, List.reverse_cons,
        List.lookup_append, lookup_cons_eq_ite]
      by_cases eq : name = first.1
      · cases h : rest.reverse.lookup name <;> simp [eq]
      · simp [eq]
  simp [ofFields_eq_putAll, field, step []]

end SealedMail.Json
