import Mathlib.Data.List.Forall2
import SealedMail.Proofs.Delivery.Records

/-!
# What the order of deliveries tells apart

The order compares a record part by part, and two records are the same (`Delivery.Same`) if they
agree in everything, dates taken as moments. Nothing is left out of the comparison: the order cannot
tell two records apart exactly if they are the same (`Delivery.compare_eq_iff`). So it is a total
order of records up to sameness.

A list and a permutation of it are sorted into lists that agree place by place up to sameness
(`Delivery.forall₂_sort`), also where one recipient has several records. Hence reading an object of
records does not depend on the order of its fields (`Delivery.ordered_up_to_sameness`).
-/

namespace SealedMail

/-! ## Moments -/

/-- The moment comes earlier than another one. -/
def Instant.Before (a b : Instant) : Prop :=
  a.seconds < b.seconds ∨ a.seconds = b.seconds ∧ a.nanoseconds < b.nanoseconds

/-- One instant compares as less exactly if it comes before. -/
lemma Instant.compare_eq_lt {a b : Instant} : a.compare b = .lt ↔ a.Before b := by
  rw [compare, Ordering.then_eq_lt, Int.compare_eq_lt, Std.compare_eq_iff_eq, Nat.compare_eq_lt]
  rfl

/-- Only the same instant compares as equal. -/
lemma Instant.compare_eq_iff {a b : Instant} : a.compare b = .eq ↔ a = b := by
  rw [compare, Ordering.then_eq_eq, Std.compare_eq_iff_eq, Std.compare_eq_iff_eq, Instant.mk.injEq]

/-- Addresses are in the order of their texts. -/
lemma Address.compare_text_eq_lt {a b : Address} : compare a.text b.text = .lt ↔ a < b :=
  compareOfLessAndEq_eq_lt

/-! ## Sameness -/

/-- Reasons have different names. -/
lemma DeliveryReason.name_inj {a b : DeliveryReason} : a.name = b.name ↔ a = b := by
  refine ⟨fun same => ?_, congrArg name⟩
  have read := ofName?_name a
  rw [same, ofName?_name b] at read
  exact (Option.some.inj read).symm

/-- Claims that compare as equal are the same up to how the date is written. -/
lemma DeliveryLock.compare_eq_iff {a b : DeliveryLock} : a.compare b = .eq ↔ a.Same b := by
  rw [compare, Ordering.then_eq_eq, Std.compare_eq_iff_eq, Instant.compare_eq_iff]
  rfl

namespace Delivery

variable {a b : Delivery} {list other : List Delivery}

/-- The moment at which the message was delivered or failed. -/
def moment? (delivery : Delivery) : Option Instant := delivery.state.date?.map DateTime.instant

/-- Dates that may be missing compare as their instants do. -/
lemma compareOption_date (a b : Option DateTime) :
    compareOption (fun a b => a.instant.compare b.instant) a b =
      compareOption Instant.compare (a.map DateTime.instant) (b.map DateTime.instant) := by
  cases a <;> cases b <;> rfl

/-- Records compare by instant, recipient, state, reason and claim, in this order. -/
lemma compare_eq (a b : Delivery) :
    a.compare b =
      ((compareOption Instant.compare a.moment? b.moment?).then <|
        (Ord.compare a.recipient.text b.recipient.text).then <|
        (Ord.compare a.state.name b.state.name).then <|
        (compareOption (fun x y => Ord.compare x.name y.name)
          a.state.reason? b.state.reason?).then <|
        compareOption DeliveryLock.compare a.state.lock? b.state.lock?) := by
  rw [compare, compareOption_date]
  rfl

/-- Every part of a state is compared, and parts that it does not have tell it from states that
have them. -/
lemma state_same_iff {a b : DeliveryState} :
    a.Same b ↔
      compareOption Instant.compare (a.date?.map DateTime.instant) (b.date?.map DateTime.instant) =
          .eq ∧
        Ord.compare a.name b.name = .eq ∧
        compareOption (fun a b => Ord.compare a.name b.name) a.reason? b.reason? = .eq ∧
        compareOption DeliveryLock.compare a.lock? b.lock? = .eq := by
  rw [Std.compare_eq_iff_eq]
  cases a with
  | unsent lock =>
    cases b with
    | unsent lock' =>
      cases lock <;> cases lock' <;>
        simp [DeliveryState.Same, DeliveryState.date?, DeliveryState.reason?, DeliveryState.lock?,
          DeliveryState.name, compareOption, DeliveryLock.compare_eq_iff]
    | delivered date => simp [DeliveryState.Same, DeliveryState.name]
    | failed date reason => simp [DeliveryState.Same, DeliveryState.name]
  | delivered date =>
    cases b with
    | unsent lock => simp [DeliveryState.Same, DeliveryState.name]
    | delivered date' =>
      simp [DeliveryState.Same, DeliveryState.date?, DeliveryState.reason?, DeliveryState.lock?,
        DeliveryState.name, compareOption, Instant.compare_eq_iff]
    | failed date' reason => simp [DeliveryState.Same, DeliveryState.name]
  | failed date reason =>
    cases b with
    | unsent lock => simp [DeliveryState.Same, DeliveryState.name]
    | delivered date' => simp [DeliveryState.Same, DeliveryState.name]
    | failed date' reason' =>
      simp [DeliveryState.Same, DeliveryState.date?, DeliveryState.reason?, DeliveryState.lock?,
        DeliveryState.name, compareOption, Instant.compare_eq_iff, DeliveryReason.name_inj]

/-- The order cannot tell two records apart exactly if they are the same. -/
lemma compare_eq_iff : a.compare b = .eq ↔ a.Same b := by
  rw [compare_eq, Same, state_same_iff]
  simp only [Ordering.then_eq_eq, Std.compare_eq_iff_eq, Address.text_inj]
  exact and_left_comm

/-- Sameness as an equivalence of records. -/
def sameness : Setoid Delivery where
  r := Same
  iseqv := by
    refine ⟨fun a => ?_, fun {a b} ab => ?_, fun {a b c} ab bc => ?_⟩
    · exact compare_eq_iff.mp Std.ReflCmp.compare_self
    · exact compare_eq_iff.mp (Std.OrientedCmp.eq_symm (compare_eq_iff.mpr ab))
    · exact compare_eq_iff.mp
        (Std.TransCmp.eq_trans (compare_eq_iff.mpr ab) (compare_eq_iff.mpr bc))

/-- What a record is up to sameness. -/
def content (delivery : Delivery) : Quotient sameness := Quotient.mk sameness delivery

/-- Records are the same up to sameness exactly if they are same. -/
lemma content_inj : a.content = b.content ↔ a.Same b := Quotient.eq

/-! ## Sorting -/

/-- The order of records, of what they are up to sameness. -/
def ContentLE (x y : Quotient sameness) : Prop :=
  ∃ a b, content a = x ∧ content b = y ∧ (a.compare b).isLE = true

/-- What comes before each other is the same. -/
lemma ContentLE.antisymm {x y : Quotient sameness} (xy : ContentLE x y) (yx : ContentLE y x) :
    x = y := by
  obtain ⟨a, b, rfl, rfl, ab⟩ := xy
  obtain ⟨b', a', hb, ha, ba⟩ := yx
  rw [content_inj, ← compare_eq_iff] at hb ha
  rw [Std.TransCmp.congr_left hb, Std.TransCmp.congr_right ha] at ba
  exact content_inj.mpr (compare_eq_iff.mp (Std.OrientedCmp.isLE_antisymm ab ba))

/-- Records in order have their contents in order. -/
lemma pairwise_content (sorted : list.Pairwise fun a b => (a.compare b).isLE = true) :
    (list.map content).Pairwise ContentLE :=
  List.pairwise_map.mpr (sorted.imp fun ab => ⟨_, _, rfl, rfl, ab⟩)

/-- Permutations are sorted into lists that are the same place by place. -/
lemma forall₂_sort (perm : list.Perm other) : List.Forall₂ Same (sort list) (sort other) := by
  have contents : (sort list).map content = (sort other).map content :=
    ((perm_sort_sort perm).map content).eq_of_pairwise (fun _ _ _ _ => ContentLE.antisymm)
      (pairwise_content (pairwise_sort list)) (pairwise_content (pairwise_sort other))
  rw [← List.forall₂_eq_eq_eq, List.forall₂_map_left_iff, List.forall₂_map_right_iff] at contents
  exact contents.imp fun _ _ => content_inj.mp

/-! ## Reading -/

/-- An object whose fields are rearranged is read into the same records, in the same places. -/
lemma forall₂_ofJson {records records' : List (String × Json)} (perm : records.Perm records')
    (read : ofJson (.object records) = .ok list) :
    ∃ list', ofJson (.object records') = .ok list' ∧ List.Forall₂ Same list list' ∧
      (NamesDiffer (.object records) → list = list') := by
  obtain ⟨⟨⟩, _⟩ | ⟨_, entries, ⟨⟩, reads, rfl⟩ := ofJson_eq_ok.mp read
  obtain ⟨entries', reads', perm'⟩ := reads.perm perm.symm
  refine ⟨sort entries', ofJson_eq_ok.mpr (.inr ⟨_, _, rfl, reads', rfl⟩), forall₂_sort perm'.symm,
    fun differ => sort_congr ?_ perm'.symm⟩
  rw [NamesDiffer, reads.recipients] at differ
  exact (List.nodup_map_iff (Option.some_injective _)).mp differ

/-- The order of records is total up to sameness: it can be read from either side, it is transitive,
and it fails to tell two records apart exactly if they are the same. Records without a date come
first, then the earlier moment counts, and where the moments agree, the recipient.

So the order of the fields of an object makes no difference to the records that are read from it.
Even with several names that spell one recipient, they are the same place by place; and an object
that is made from fields of different names in another order is read alike, also where it is
refused. -/
theorem ordered_up_to_sameness (a b c : Delivery) (records records' : List (String × Json)) :
    a.compare b = (b.compare a).swap ∧
      ((a.compare b).isLE = true → (b.compare c).isLE = true → (a.compare c).isLE = true) ∧
      (a.compare b = .eq ↔ a.Same b) ∧
      (a.moment? = none → b.moment? ≠ none → a.compare b = .lt) ∧
      (∀ m n, a.moment? = some m → b.moment? = some n → m.Before n → a.compare b = .lt) ∧
      (a.moment? = b.moment? → a.recipient < b.recipient → a.compare b = .lt) ∧
      (records.Perm records' →
        (∀ list, ofJson (.object records) = .ok list →
          ∃ list', ofJson (.object records') = .ok list' ∧ List.Forall₂ Same list list' ∧
            (NamesDiffer (.object records) → list = list')) ∧
        ((records.map Prod.fst).Nodup →
          ofJson (.ofFields records) = ofJson (.ofFields records'))) := by
  refine ⟨compare_eq_swap a b, Std.TransCmp.isLE_trans, compare_eq_iff, ?_, ?_, ?_, ?_⟩
  · intro undated dated
    obtain ⟨m, hm⟩ := Option.ne_none_iff_exists'.mp dated
    rw [compare_eq, undated, hm]
    rfl
  · intro m n hm hn before
    rw [compare_eq, hm, hn, Ordering.then_eq_lt]
    exact .inl (Instant.compare_eq_lt.mpr before)
  · intro together before
    have tie : compareOption Instant.compare b.moment? b.moment? = .eq := Std.ReflCmp.compare_self
    rw [compare_eq, together, tie, Ordering.eq_then, Ordering.then_eq_lt]
    exact .inl (Address.compare_text_eq_lt.mpr before)
  · intro perm
    exact ⟨fun list read => forall₂_ofJson perm read,
      fun distinct => congrArg ofJson (Json.ofFields_congr distinct perm)⟩

end Delivery

end SealedMail
