import SealedMail.KeyRing
import SealedMail.Store.Table

/-!
# Caching private keys

A cache in front of a key ring keeps every key that the ring gave, and counts how often a key was
there and how often not. A failed look-up is not kept.
-/

namespace SealedMail

/-- Keys that were looked up before, and counts of look-ups. -/
structure KeyCache where
  keys : Table (KeyPurpose × UInt32) PrivateKey
  hits : Nat
  misses : Nat

namespace KeyCache

/-- A new cache. -/
def empty : KeyCache := ⟨.empty, 0, 0⟩

/-- The cache without its keys. The counts go on. -/
def clear (cache : KeyCache) : KeyCache := { cache with keys := .empty }

/-- No key is left after clearing. -/
@[simp]
theorem get?_clear (cache : KeyCache) (name : KeyPurpose × UInt32) :
    cache.clear.keys.get? name = none := rfl

/-- The ring with the cache in front of it. -/
def through {σ : Type} (ring : KeyRing σ) : KeyRing (KeyCache × σ) :=
  fun purpose id (cache, state) =>
  match cache.keys.get? (purpose, id) with
  | some key => (.ok key, { cache with hits := cache.hits + 1 }, state)
  | none =>
    let missed := { cache with misses := cache.misses + 1 }
    match ring purpose id state with
    | (.ok key, state) => (.ok key, { missed with keys := cache.keys.put (purpose, id) key }, state)
    | (.error e, state) => (.error e, missed, state)

end KeyCache

end SealedMail
