import SealedMail.Address.Basic

/-!
# Sets of addresses

A set is kept as its members in order, so that two sets with the same members are equal. The
members of a conversation are such a set.
-/

namespace SealedMail

namespace AddressSet

/-- The list with an address put in its place, unless it is there already. -/
def place (a : Address) : List Address → List Address
  | [] => [a]
  | b :: rest =>
    if a.text = b.text then b :: rest
    else if a < b then a :: b :: rest
    else b :: place a rest

/-- Nothing comes into the list but the address that is placed. -/
theorem mem_place {a x : Address} {l : List Address} (h : x ∈ place a l) : x = a ∨ x ∈ l := by
  induction l with
  | nil => simpa [place] using h
  | cons b rest ih =>
    rw [place] at h
    split at h
    · exact .inr h
    · split at h
      · simpa using h
      · rcases List.mem_cons.mp h with rfl | h
        · simp
        · rcases ih h with rfl | h
          · simp
          · simp [h]

/-- Placing an address keeps the list in order. -/
theorem pairwise_place (a : Address) {l : List Address} (h : l.Pairwise (· < ·)) :
    (place a l).Pairwise (· < ·) := by
  induction l with
  | nil => simp [place]
  | cons b rest ih =>
    obtain ⟨first, tail⟩ := List.pairwise_cons.mp h
    rw [place]
    split
    next => exact h
    next ne =>
      split
      next lt =>
        refine List.pairwise_cons.mpr ⟨fun x hx => ?_, h⟩
        rcases List.mem_cons.mp hx with rfl | hx
        · exact lt
        · exact List.lt_trans lt (first x hx)
      next nlt =>
        refine List.pairwise_cons.mpr ⟨fun x hx => ?_, ih tail⟩
        rcases mem_place hx with rfl | hx
        · apply Classical.byContradiction
          intro nle
          exact ne (String.toList_injective
            (List.le_antisymm (List.not_lt.mp nle) (List.not_lt.mp nlt)))
        · exact first x hx

end AddressSet

structure AddressSet where
  toList : List Address
  isSorted : toList.Pairwise (· < ·)
  deriving DecidableEq

namespace AddressSet

def empty : AddressSet := ⟨[], .nil⟩

def insert (s : AddressSet) (a : Address) : AddressSet :=
  ⟨place a s.toList, pairwise_place a s.isSorted⟩

def ofList (l : List Address) : AddressSet := l.foldl insert empty

instance : Membership Address AddressSet := ⟨fun s a => a ∈ s.toList⟩

instance (a : Address) (s : AddressSet) : Decidable (a ∈ s) :=
  inferInstanceAs (Decidable (a ∈ s.toList))

end AddressSet

end SealedMail
