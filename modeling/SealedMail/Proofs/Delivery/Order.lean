import Mathlib.Data.List.Sort
import SealedMail.Delivery.Basic
import SealedMail.Proofs.Address

/-!
# The order of deliveries

Records are compared part by part, and each part in an order that is total and transitive. So is the
order of records (the instances of `Std.TransCmp`), and records that it cannot tell apart are about
one recipient (`Delivery.recipient_eq_of_compare`). Hence records of different recipients have one
order in which they stand, whatever order they come in (`Delivery.sort_congr`), and it is strict
(`Delivery.pairwise_lt_sort`).
-/

namespace SealedMail

open Std

/-! ## The parts of a record -/

section Combinators

variable {α β : Type}

/-- Values may be compared by something else about them. -/
lemma transCmp_on (compare : β → β → Ordering) [TransCmp compare] (f : α → β) :
    TransCmp fun a b => compare (f a) (f b) where
  eq_swap := OrientedCmp.eq_swap
  isLE_trans := TransCmp.isLE_trans

/-- What one order cannot tell apart may be compared by another. -/
lemma transCmp_then {first second : α → α → Ordering} (hfirst : TransCmp first)
    (hsecond : TransCmp second) : TransCmp fun a b => (first a b).then (second a b) :=
  inferInstanceAs (TransCmp (compareLex first second))

instance transCmp_compareOption (compare : α → α → Ordering) [TransCmp compare] :
    TransCmp (compareOption compare) where
  eq_swap {a b} := by
    cases a <;> cases b
    case some.some a b => exact (OrientedCmp.eq_swap : compare a b = _)
    all_goals rfl
  isLE_trans {a b c} ab bc := by
    cases a <;> cases b <;> cases c
    case some.some.some a b c => exact (TransCmp.isLE_trans ab bc : (compare a c).isLE = true)
    -- nothing is before everything else
    all_goals first | rfl | cases ab | cases bc

end Combinators

instance : TransCmp Instant.compare :=
  transCmp_then (transCmp_on compare Instant.seconds) (transCmp_on compare Instant.nanoseconds)

instance : TransCmp fun a b : DateTime => a.instant.compare b.instant :=
  transCmp_on Instant.compare DateTime.instant

instance : TransCmp fun a b : DeliveryReason => compare a.name b.name :=
  transCmp_on compare DeliveryReason.name

instance : TransCmp DeliveryLock.compare :=
  transCmp_then (transCmp_on compare DeliveryLock.holder)
    (transCmp_on Instant.compare fun lock : DeliveryLock => lock.expires.instant)

/-! ## Records -/

namespace Delivery

instance : TransCmp Delivery.compare :=
  transCmp_then (transCmp_on (compareOption _) fun a : Delivery => a.state.date?) <|
  transCmp_then (transCmp_on Ord.compare fun a : Delivery => a.recipient.text) <|
  transCmp_then (transCmp_on Ord.compare fun a : Delivery => a.state.name) <|
  transCmp_then (transCmp_on (compareOption _) fun a : Delivery => a.state.reason?) <|
  transCmp_on (compareOption _) fun a : Delivery => a.state.lock?

variable {a b : Delivery} {list other : List Delivery}

/-- Records that the order cannot tell apart are about one recipient. -/
lemma recipient_eq_of_compare (h : a.compare b = .eq) : a.recipient = b.recipient := by
  rw [compare, Ordering.then_eq_eq, Ordering.then_eq_eq] at h
  exact Address.text_inj.mp (LawfulEqCmp.eq_of_compare h.2.1)

/-- Comparing in the other order gives the opposite. -/
lemma compare_eq_swap (a b : Delivery) : a.compare b = (b.compare a).swap := OrientedCmp.eq_swap

/-- Of two records one comes before the other, or they are the same. -/
lemma isLE_total (a b : Delivery) : ((a.compare b).isLE || (b.compare a).isLE) = true := by
  rw [compare_eq_swap b a]
  cases a.compare b <;> rfl

/-! ## Sorting -/

/-- Sorting puts records in the order in which they compare. -/
lemma sort_eq (list : List Delivery) :
    sort list = list.mergeSort fun a b => (a.compare b).isLE := by
  rw [sort]
  congr
  funext a b
  cases a.compare b <;> rfl

/-- Sorting loses nothing and adds nothing. -/
lemma perm_sort (list : List Delivery) : (sort list).Perm list := List.mergeSort_perm _ _

/-- What was sorted is in order. -/
lemma pairwise_sort (list : List Delivery) :
    (sort list).Pairwise fun a b => (a.compare b).isLE = true := by
  rw [sort_eq]
  exact List.pairwise_mergeSort (fun _ _ _ => TransCmp.isLE_trans) isLE_total list

/-- What is in order is left as it is. -/
lemma sort_of_pairwise (sorted : list.Pairwise fun a b => (a.compare b).isLE = true) :
    sort list = list := by
  rw [sort_eq]
  exact List.mergeSort_of_pairwise sorted

/-- Recipients that come once come once in order. -/
lemma nodup_sort (distinct : (list.map recipient).Nodup) :
    ((sort list).map recipient).Nodup :=
  ((perm_sort list).map recipient).nodup_iff.mpr distinct

/-- Records that are the same up to order are so when sorted. -/
lemma perm_sort_sort (perm : list.Perm other) : (sort list).Perm (sort other) :=
  (perm_sort list).trans (perm.trans (perm_sort other).symm)

/-- Records of different recipients stand in the same order, in whatever order they come. -/
lemma sort_congr (distinct : (list.map recipient).Nodup) (perm : list.Perm other) :
    sort list = sort other := by
  have same := perm_sort_sort perm
  refine same.eq_of_pairwise (fun a b ha hb ab ba => ?_) (pairwise_sort list) (pairwise_sort other)
  have equal : a.compare b = .eq := OrientedCmp.isLE_antisymm ab ba
  exact List.inj_on_of_nodup_map (nodup_sort distinct) ha (same.mem_iff.mpr hb)
    (recipient_eq_of_compare equal)

/-- Records of different recipients are in strict order. -/
lemma pairwise_lt (distinct : (list.map recipient).Nodup)
    (sorted : list.Pairwise fun a b => (a.compare b).isLE = true) :
    list.Pairwise fun a b => a.compare b = .lt := by
  refine (sorted.and (List.pairwise_map.mp distinct)).imp ?_
  rintro a b ⟨le, ne⟩
  cases h : a.compare b with
  | lt => rfl
  | eq => exact absurd (recipient_eq_of_compare h) ne
  | gt =>
    rw [h] at le
    cases le

end Delivery

end SealedMail
