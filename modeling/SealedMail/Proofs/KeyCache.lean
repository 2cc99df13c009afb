import SealedMail.KeyCache
import SealedMail.Proofs.Store.History

/-!
# A cache that nobody notices

A store stands behind a cache and goes on changing, and the calls that come through to it are
recorded. What can happen then is said once, by `CachedStore.Step`. Since a store never gives up a
private key, what is in the cache is in the store as well (`CachedStore.Step.keys_grow`); and
failures are not kept. So the cache answers as the store does at that moment
(`CachedStore.transparent`).
-/

namespace SealedMail

/-! ## Recorded calls -/

/-- What a ring was asked for, and what it answered. -/
structure KeyCall where
  purpose : KeyPurpose
  id : UInt32
  answer : Except LookupError PrivateKey

namespace KeyCall

/-- What the key is found under. -/
def name (call : KeyCall) : KeyPurpose × UInt32 := (call.purpose, call.id)

def succeeded (call : KeyCall) : Bool := call.answer.isOk

end KeyCall

/-- The ring with a record of the calls to it, the last one first. -/
def KeyRing.recorded {σ : Type} (ring : KeyRing σ) : KeyRing (σ × List KeyCall) :=
  fun purpose id (state, calls) =>
  let (answer, state) := ring purpose id state
  (answer, state, ⟨purpose, id, answer⟩ :: calls)

/-- The private keys that a store has when it is asked. -/
def Store.currentKeys : KeyRing Store := fun purpose id store => store.keyRing purpose id store

/-- A cache, the store behind it, and the calls that came through to the store. -/
abbrev CachedStore := KeyCache × Store × List KeyCall

namespace CachedStore

/-! ## What can happen -/

/-- What can happen to a store behind a cache. -/
inductive Event where
  | lookup (purpose : KeyPurpose) (id : UInt32)
  | clear
  /-- Something is asked of the store itself. -/
  | request (request : Store.Request)

namespace Event

def isLookup : Event → Bool
  | lookup .. => true
  | _ => false

def request? : Event → Option Store.Request
  | request r => some r
  | _ => none

end Event

/-- A private key by way of the cache. -/
def lookup : KeyRing CachedStore := KeyCache.through Store.currentKeys.recorded

def after (state : CachedStore) : Event → CachedStore
  | .lookup purpose id => (lookup purpose id state).2
  | .clear => (state.1.clear, state.2)
  | .request request => (state.1, state.2.1.after request, state.2.2)

/-- The state after events that come one after the other. -/
def afterAll (state : CachedStore) (events : List Event) : CachedStore := events.foldl after state

/-- What an event can make of a store behind a cache. -/
inductive Step : CachedStore → Event → CachedStore → Prop where
  | hit {cache : KeyCache} {store calls purpose id key} :
    cache.keys.get? (purpose, id) = some key →
    Step (cache, store, calls) (.lookup purpose id)
      ({ cache with hits := cache.hits + 1 }, store, calls)
  | loaded {cache : KeyCache} {store : Store} {calls purpose id key} :
    cache.keys.get? (purpose, id) = none →
    store.privateKeys.get? (purpose, id) = some key →
    Step (cache, store, calls) (.lookup purpose id)
      (⟨cache.keys.put (purpose, id) key, cache.hits, cache.misses + 1⟩, store,
        ⟨purpose, id, .ok key⟩ :: calls)
  | failed {cache : KeyCache} {store : Store} {calls purpose id} :
    cache.keys.get? (purpose, id) = none →
    store.privateKeys.get? (purpose, id) = none →
    Step (cache, store, calls) (.lookup purpose id)
      ({ cache with misses := cache.misses + 1 }, store,
        ⟨purpose, id, .error (.store (.notFound (.privateKey purpose id)))⟩ :: calls)
  | clear {cache rest} : Step (cache, rest) .clear (cache.clear, rest)
  | request {cache store calls request} :
    Step (cache, store, calls) (.request request) (cache, store.after request, calls)

variable {state state' : CachedStore} {cache : KeyCache} {store : Store} {calls : List KeyCall}
  {purpose : KeyPurpose} {id : UInt32} {event : Event} {events : List Event}

/-- A call that comes through is answered as by the store, and recorded. -/
lemma recorded_currentKeys (purpose : KeyPurpose) (id : UInt32) (store : Store)
    (calls : List KeyCall) :
    Store.currentKeys.recorded purpose id (store, calls) =
      ((store.privateKey purpose id).mapError .store, store,
        ⟨purpose, id, (store.privateKey purpose id).mapError .store⟩ :: calls) := rfl

/-- A key in the cache is a hit. -/
lemma lookup_of_cached {key : PrivateKey} (cached : cache.keys.get? (purpose, id) = some key) :
    lookup purpose id (cache, store, calls) =
      (.ok key, { cache with hits := cache.hits + 1 }, store, calls) := by
  simp only [lookup, KeyCache.through, cached]

/-- A key that only the store has is a miss, and then in the cache. -/
lemma lookup_of_stored {key : PrivateKey} (uncached : cache.keys.get? (purpose, id) = none)
    (stored : store.privateKeys.get? (purpose, id) = some key) :
    lookup purpose id (cache, store, calls) =
      (.ok key, ⟨cache.keys.put (purpose, id) key, cache.hits, cache.misses + 1⟩, store,
        ⟨purpose, id, .ok key⟩ :: calls) := by
  have given : (store.privateKey purpose id).mapError LookupError.store = .ok key := by
    rw [Store.privateKey, stored]
    rfl
  simp only [lookup, KeyCache.through, uncached, recorded_currentKeys, given]

/-- A key that is nowhere is a miss, and the failure is not kept. -/
lemma lookup_of_missing (uncached : cache.keys.get? (purpose, id) = none)
    (missing : store.privateKeys.get? (purpose, id) = none) :
    lookup purpose id (cache, store, calls) =
      (.error (.store (.notFound (.privateKey purpose id))),
        { cache with misses := cache.misses + 1 }, store,
        ⟨purpose, id, .error (.store (.notFound (.privateKey purpose id)))⟩ :: calls) := by
  have refused : (store.privateKey purpose id).mapError LookupError.store =
      .error (.store (.notFound (.privateKey purpose id))) := by
    rw [Store.privateKey, missing]
    rfl
  simp only [lookup, KeyCache.through, uncached, recorded_currentKeys, refused]

/-- Events do nothing but what a step does. -/
theorem step_after (state : CachedStore) (event : Event) :
    Step state event (state.after event) := by
  obtain ⟨cache, store, calls⟩ := state
  cases event with
  | lookup purpose id =>
    rw [after]
    cases cached : cache.keys.get? (purpose, id) with
    | some key =>
      rw [lookup_of_cached cached]
      exact .hit cached
    | none =>
      cases stored : store.privateKeys.get? (purpose, id) with
      | some key =>
        rw [lookup_of_stored cached stored]
        exact .loaded cached stored
      | none =>
        rw [lookup_of_missing cached stored]
        exact .failed cached stored
  | clear => exact .clear
  | request request => exact .request

/-! ## Answers -/

/-- What is in the cache stays in the store. -/
theorem Step.keys_grow (step : Step state event state')
    (kept : state.1.keys.Grows state.2.1.privateKeys) :
    state'.1.keys.Grows state'.2.1.privateKeys := by
  cases step with
  | hit => exact kept
  | loaded _ stored =>
    intro name key found
    rcases Table.of_get?_put found with ⟨rfl, rfl⟩ | ⟨_, before⟩
    · exact stored
    · exact kept name key before
  | failed => exact kept
  | clear => exact nofun
  | request => exact kept.trans (Store.step_after _ _).privateKeys_grow

/-- Whatever happens, what is in the cache is in the store as well. -/
lemma keys_grow_afterAll (kept : state.1.keys.Grows state.2.1.privateKeys) (events : List Event) :
    (state.afterAll events).1.keys.Grows (state.afterAll events).2.1.privateKeys := by
  induction events generalizing state with
  | nil => exact kept
  | cons event rest ih => exact ih ((step_after state event).keys_grow kept)

/-- If the cache has only what the store has, it answers as the store does and leaves it alone. -/
lemma lookup_eq (kept : cache.keys.Grows store.privateKeys) (purpose : KeyPurpose) (id : UInt32) :
    ∃ cache' calls', lookup purpose id (cache, store, calls) =
      ((store.privateKey purpose id).mapError .store, cache', store, calls') := by
  rw [Store.privateKey]
  cases cached : cache.keys.get? (purpose, id) with
  | some key =>
    rw [kept _ _ cached]
    exact ⟨_, _, lookup_of_cached cached⟩
  | none =>
    cases stored : store.privateKeys.get? (purpose, id) with
    | some key => exact ⟨_, _, lookup_of_stored cached stored⟩
    | none => exact ⟨_, _, lookup_of_missing cached stored⟩

/-- Clearing makes the store give a key again. After it a first lookup of a key that the store has
misses and comes through to the store, and a second one hits. -/
theorem reloaded_after_clear (cache : KeyCache) (calls : List KeyCall) {key : PrivateKey}
    (stored : store.privateKeys.get? (purpose, id) = some key) :
    afterAll (cache, store, calls) [.clear, .lookup purpose id, .lookup purpose id] =
      (⟨Table.empty.put (purpose, id) key, cache.hits + 1, cache.misses + 1⟩, store,
        ⟨purpose, id, .ok key⟩ :: calls) := by
  have first : after (cache.clear, store, calls) (.lookup purpose id) =
      (⟨cache.clear.keys.put (purpose, id) key, cache.hits, cache.misses + 1⟩, store,
        ⟨purpose, id, .ok key⟩ :: calls) :=
    congrArg Prod.snd (lookup_of_stored (cache.get?_clear _) stored)
  have cached : (cache.clear.keys.put (purpose, id) key).get? (purpose, id) = some key := by
    rw [Table.get?_put, if_pos rfl]
  change after (after (cache.clear, store, calls) (.lookup purpose id)) (.lookup purpose id) = _
  rw [first, after, lookup_of_cached cached]
  rfl

/-- An event does to the store what was asked of it, and nothing otherwise. -/
lemma Step.store_eq (step : Step state event state') (rest : List Event) :
    state'.2.1.afterAll (rest.filterMap Event.request?) =
      state.2.1.afterAll ((event :: rest).filterMap Event.request?) := by
  cases step with
  | _ => rfl

/-- The store is as if only what was asked of it had happened. -/
lemma store_afterAll (state : CachedStore) (events : List Event) :
    (state.afterAll events).2.1 = state.2.1.afterAll (events.filterMap Event.request?) := by
  induction events generalizing state with
  | nil => rfl
  | cons event rest ih => exact (ih _).trans ((step_after state event).store_eq rest)

/-! ## Counts -/

/-- Hits and misses together are the lookups, and the misses are the calls that came through. -/
structure Counts (state : CachedStore) (lookups : Nat) : Prop where
  lookups : state.1.hits + state.1.misses = lookups
  calls : state.1.misses = state.2.2.length

/-- An event keeps the counts right. -/
lemma Step.counts {lookups : Nat} (step : Step state event state') (counts : state.Counts lookups) :
    state'.Counts (lookups + if event.isLookup then 1 else 0) := by
  obtain ⟨asked, called⟩ := counts
  cases step with
  | hit => exact ⟨(Nat.add_right_comm ..).trans (congrArg (· + 1) asked), called⟩
  | loaded => exact ⟨congrArg (· + 1) asked, congrArg (· + 1) called⟩
  | failed => exact ⟨congrArg (· + 1) asked, congrArg (· + 1) called⟩
  | clear => exact ⟨asked, called⟩
  | request => exact ⟨asked, called⟩

/-- The counts are right whatever happens. -/
lemma counts_afterAll {lookups : Nat} (counts : state.Counts lookups) (events : List Event) :
    (state.afterAll events).Counts (lookups + events.countP Event.isLookup) := by
  induction events generalizing state lookups with
  | nil => exact counts
  | cons event rest ih =>
    rw [List.countP_cons, Nat.add_comm (rest.countP _), ← Nat.add_assoc]
    exact ih ((step_after state event).counts counts)

/-! ## Calls that gave a key -/

/-- No key was given twice, and all that were given are in the cache. -/
structure GivenOnce (cache : KeyCache) (calls : List KeyCall) : Prop where
  distinct : ((calls.filter KeyCall.succeeded).map KeyCall.name).Nodup
  cached : ∀ call ∈ calls, call.succeeded = true → cache.keys.get? call.name ≠ none

lemma givenOnce_nil (cache : KeyCache) : GivenOnce cache [] := ⟨.nil, nofun⟩

/-- Only `clear` lets the store give a key again. -/
lemma Step.givenOnce {new old calls' : List KeyCall} {cache' : KeyCache} {store' : Store}
    (step : Step (cache, store, new ++ old) event (cache', store', calls')) (ne : event ≠ .clear)
    (once : GivenOnce cache new) : ∃ new', calls' = new' ++ old ∧ GivenOnce cache' new' := by
  cases step with
  | hit => exact ⟨new, rfl, once.distinct, once.cached⟩
  | @loaded _ _ _ purpose id key uncached =>
    refine ⟨⟨purpose, id, .ok key⟩ :: new, rfl, ?_, ?_⟩
    · rw [List.filter_cons_of_pos rfl, List.map_cons, List.nodup_cons]
      refine ⟨fun again => ?_, once.distinct⟩
      obtain ⟨call, given, same⟩ := List.mem_map.mp again
      obtain ⟨mem, succeeded⟩ := List.mem_filter.mp given
      exact once.cached call mem succeeded (same ▸ uncached)
    · intro call mem succeeded missing
      rw [Table.get?_put] at missing
      split at missing
      next => cases missing
      next other =>
        rcases List.mem_cons.mp mem with rfl | mem
        · exact other rfl
        · exact once.cached call mem succeeded missing
  | @failed _ _ _ purpose id =>
    refine ⟨⟨purpose, id, .error _⟩ :: new, rfl, once.distinct, ?_⟩
    intro call mem succeeded
    rcases List.mem_cons.mp mem with rfl | mem
    · cases succeeded
    · exact once.cached call mem succeeded
  | clear => exact absurd rfl ne
  | request => exact ⟨new, rfl, once⟩

/-- Until the cache is cleared, no key is given twice. -/
lemma givenOnce_afterAll {new : List KeyCall} (once : GivenOnce cache new) (store : Store)
    (old : List KeyCall) (kept : .clear ∉ events) :
    ∃ cache' store' new',
      afterAll (cache, store, new ++ old) events = (cache', store', new' ++ old) ∧
        GivenOnce cache' new' := by
  induction events generalizing cache store new with
  | nil => exact ⟨cache, store, new, rfl, once⟩
  | cons event rest ih =>
    have ne : event ≠ .clear := (List.ne_of_not_mem_cons kept).symm
    have step := step_after (cache, store, new ++ old) event
    obtain ⟨cache', store', calls', eq⟩ : ∃ cache' store' calls',
        after (cache, store, new ++ old) event = (cache', store', calls') := ⟨_, _, _, rfl⟩
    rw [eq] at step
    obtain ⟨new', rfl, once'⟩ := step.givenOnce ne once
    obtain ⟨cache'', store'', new'', later, once''⟩ :=
      ih once' store' (List.not_mem_of_not_mem_cons kept)
    refine ⟨cache'', store'', new'', ?_, once''⟩
    rw [← later, ← eq]
    rfl

/-! ## Transparency -/

/-- The cache is transparent. Whatever was looked up by way of the cache, asked of the store itself,
and cleared: the store is as if the cache were not there, and each lookup answers, with a key or a
failure, as the store does at that moment, and leaves the store alone. The hits and misses are as
many as the lookups, and the misses as many as the calls to the store; and from any point on, up to
the next time that the cache is cleared, the store gives no key twice. -/
theorem transparent (store : Store) (events : List Event) :
    ∃ cache later calls,
      afterAll (.empty, store, []) events = (cache, later, calls) ∧
      later = store.afterAll (events.filterMap Event.request?) ∧
      (∀ purpose id, ∃ cache' calls', lookup purpose id (cache, later, calls) =
        ((later.privateKey purpose id).mapError .store, cache', later, calls')) ∧
      cache.hits + cache.misses = events.countP Event.isLookup ∧
      cache.misses = calls.length ∧
      ∀ next, .clear ∉ next → ∃ cache' store' new,
        afterAll (cache, later, calls) next = (cache', store', new ++ calls) ∧
        ((new.filter KeyCall.succeeded).map KeyCall.name).Nodup := by
  let start : CachedStore := (.empty, store, [])
  have kept : start.1.keys.Grows start.2.1.privateKeys := nofun
  have counts : start.Counts 0 := ⟨rfl, rfl⟩
  have kept' := keys_grow_afterAll kept events
  have counts' := counts_afterAll counts events
  have same := store_afterAll start events
  obtain ⟨cache, later, calls, run⟩ : ∃ cache later calls,
      start.afterAll events = (cache, later, calls) := ⟨_, _, _, rfl⟩
  rw [run] at kept' counts' same
  refine ⟨cache, later, calls, run, same, lookup_eq kept', ?_, counts'.calls, ?_⟩
  · exact counts'.lookups.trans (Nat.zero_add _)
  · intro next uncleared
    obtain ⟨cache', store', new, later', once⟩ :=
      givenOnce_afterAll (givenOnce_nil cache) later calls uncleared
    exact ⟨cache', store', new, later', once.distinct⟩

/-- A key is looked up before it is there, and twice after it was added. Then the cache is cleared,
and the key is looked up twice again: the store gives it once more, and the cache after that. -/
theorem transparent_reload :
    let key : PrivateKey := ⟨.encryption, 3, 3, 3, 5, by decide, by decide⟩
    let events : List Event := [.lookup .encryption 1, .request (.addPrivateKey 1 key),
      .lookup .encryption 1, .lookup .encryption 1, .clear]
    let again : List Event := [.lookup .encryption 1, .lookup .encryption 1]
    ∃ cache later calls cache' calls' cache'' later'' new,
      afterAll (.empty, .empty, []) events = (cache, later, calls) ∧
      cache.hits = 1 ∧ cache.misses = 2 ∧ calls.length = 2 ∧
      lookup .encryption 1 (cache, later, calls) = (.ok key, cache', later, calls') ∧
      cache'.hits = 1 ∧ cache'.misses = 3 ∧
      afterAll (cache, later, calls) again = (cache'', later'', new ++ calls) ∧
      cache''.hits = 2 ∧ cache''.misses = 3 ∧
      (new.filter KeyCall.succeeded).map KeyCall.name = [(.encryption, 1)] ∧
      ((new.filter KeyCall.succeeded).map KeyCall.name).Nodup := by
  intro key events again
  obtain ⟨cache, later, calls, run, same, answers, asked, called, once⟩ := transparent .empty events
  have hits : cache.hits = 1 := (congrArg (·.1.hits) run).symm
  have misses : cache.misses = 2 := by
    rw [hits] at asked
    exact Nat.add_left_cancel asked
  have given : later.privateKey .encryption 1 = .ok key := by
    rw [same]
    rfl
  obtain ⟨cache', calls', answer⟩ := answers .encryption 1
  rw [given] at answer
  have uncleared : .clear ∉ again := by simp [again]
  obtain ⟨cache'', later'', new, run', distinct⟩ := once again uncleared
  have first : lookup .encryption 1 (afterAll (.empty, .empty, []) events) =
      (.ok key, cache', later, calls') := run ▸ answer
  have second : afterAll (afterAll (.empty, .empty, []) events) again =
      (cache'', later'', new ++ calls) := run ▸ run'
  -- the calls after the cache was cleared stand before those that were made earlier
  have loaded : new = [⟨.encryption, 1, .ok key⟩] := by
    have before : [⟨.encryption, 1, .ok key⟩] ++ _ = [⟨.encryption, 1, .ok key⟩] ++ calls :=
      congrArg (fun state => [⟨.encryption, 1, .ok key⟩] ++ state.2.2) run
    exact List.append_cancel_right ((congrArg (·.2.2) second).symm.trans before)
  refine ⟨cache, later, calls, cache', calls', cache'', later'', new, run, hits, misses,
    called.symm.trans misses, answer, (congrArg (·.2.1.hits) first).symm,
    (congrArg (·.2.1.misses) first).symm, run', (congrArg (·.1.hits) second).symm,
    (congrArg (·.1.misses) second).symm, ?_, distinct⟩
  rw [loaded]
  rfl

end CachedStore

end SealedMail
