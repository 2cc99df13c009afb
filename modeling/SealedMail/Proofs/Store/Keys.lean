import SealedMail.Proofs.Refusal
import SealedMail.Proofs.Store.History

/-!
# Keys that stay

Whoever adds keys to a store cannot put one in the place of another. A key is found under its own
purpose (`Store.Reachable.isTyped`) and stays under its number whatever comes later
(`Store.keys_never_displaced`). So a store is a directory whose keys never refuse to verify a
signature, and a signature that it has accepted it accepts for ever.
-/

namespace SealedMail

/-- Content that is accepted is accepted where more keys are known. -/
lemma SignedContent.verify_of_more {content : SignedContent} {sender : Address}
    {keys later : Directory}
    (more : ∀ address purpose id key, keys address purpose id = some key →
      later address purpose id = some key)
    (accepted : content.verify sender keys = .ok ()) : content.verify sender later = .ok () := by
  obtain ⟨key, found, signed⟩ := verify_eq_ok.mp accepted
  exact verify_eq_ok.mpr ⟨key, more _ _ _ _ found, signed⟩

namespace Store

variable {store store' : Store} {request : Request} {address : Address} {purpose : KeyPurpose}
  {id : UInt32}

/-! ## Finding keys -/

/-- A private key is found exactly if it is in its table. -/
lemma privateKey_eq_ok {key : PrivateKey} :
    store.privateKey purpose id = .ok key ↔ store.privateKeys.get? (purpose, id) = some key := by
  rw [privateKey]
  cases store.privateKeys.get? (purpose, id) with
  | none => exact ⟨nofun, nofun⟩
  | some known => rw [Except.ok.injEq, Option.some.injEq]

/-- A private key is found for good. -/
lemma privateKey_afterAll {key : PrivateKey} (found : store.privateKey purpose id = .ok key)
    (requests : List Request) : (store.afterAll requests).privateKey purpose id = .ok key :=
  privateKey_eq_ok.mpr
    (grows_afterAll Step.privateKeys_grow store requests _ _ (privateKey_eq_ok.mp found))

/-- A public key is found for good. -/
lemma directory_afterAll {key : PublicKey} (found : store.directory address purpose id = some key)
    (requests : List Request) : (store.afterAll requests).directory address purpose id = some key :=
  grows_afterAll Step.publicKeys_grow store requests _ _ found

/-! ## Adding keys -/

/-- A private key that was added is there. -/
lemma privateKey_of_addPrivateKey {key : PrivateKey}
    (added : store.addPrivateKey id key = .ok store') :
    store'.privateKey key.purpose id = .ok key := by
  rw [addPrivateKey] at added
  split at added
  next => cases added
  next =>
    cases added
    exact privateKey_eq_ok.mpr ((Table.get?_put ..).trans (if_pos rfl))

/-- Where an account has a public key, the same one is added in vain, and another one is refused. -/
lemma addPublicKey_of_known {known key : PublicKey}
    (found : store.directory address key.purpose id = some known) :
    store.addPublicKey address id key =
      if known = key then .ok store else .error (.keyConflict key.purpose id) := by
  rw [directory] at found
  rw [addPublicKey, found]

/-- A public key that was added is there. -/
lemma directory_of_addPublicKey {key : PublicKey}
    (added : store.addPublicKey address id key = .ok store') :
    store'.directory address key.purpose id = some key := by
  cases found : store.directory address key.purpose id with
  | some known =>
    rw [addPublicKey_of_known found] at added
    split at added
    next same =>
      cases added
      rw [found, same]
    next => cases added
  | none =>
    rw [directory] at found
    rw [addPublicKey, found] at added
    cases added
    exact (Table.get?_put ..).trans (if_pos rfl)

/-! ## Purposes -/

/-- Every key is found under its own purpose. -/
structure IsTyped (store : Store) : Prop where
  privateKeys : ∀ purpose id key, store.privateKeys.get? (purpose, id) = some key →
    key.purpose = purpose
  directory : store.directory.IsTyped

/-- No step brings in a key under another purpose. -/
theorem Step.isTyped (step : Step store request store') (typed : store.IsTyped) :
    store'.IsTyped := by
  refine ⟨?_, ?_⟩
  · intro purpose id key found
    rcases step.privateKeys_eq with same | ⟨_, _, _, added⟩
    · exact typed.privateKeys _ _ _ (same ▸ found)
    · rw [added] at found
      rcases Table.of_get?_put found with ⟨here, rfl⟩ | ⟨_, before⟩
      · exact (congrArg Prod.fst here).symm
      · exact typed.privateKeys _ _ _ before
  · intro address purpose id key found
    rw [Store.directory] at found
    rcases step.publicKeys_eq with same | ⟨_, _, _, _, added⟩
    · exact typed.directory _ _ _ _ (same ▸ found)
    · rw [added] at found
      rcases Table.of_get?_put found with ⟨here, rfl⟩ | ⟨_, before⟩
      · exact (congrArg (Prod.fst ∘ Prod.snd) here).symm
      · exact typed.directory _ _ _ _ before

/-- In every store that can come up keys are under their own purposes. -/
theorem Reachable.isTyped (reachable : store.Reachable) : store.IsTyped := by
  induction reachable with
  | empty => exact ⟨nofun, nofun⟩
  | after request _ ih => exact (step_after _ request).isTyped ih

/-! ## Keys that are never displaced -/

/-- Trusted keys cannot be displaced. In every store that comes of an empty one, a key that is found
is of the purpose that was asked for. It is found again after any requests, as is one that is added
now. Where an account has a public key, to add the same one changes nothing, and another one is
refused as a conflict and changes nothing either. So the check of a signature never fails for the
kind of the key, and content that is accepted from a sender is accepted after any requests. -/
theorem keys_never_displaced (reachable : store.Reachable) :
    (∀ purpose id key, store.privateKey purpose id = .ok key →
      key.purpose = purpose ∧
        ∀ requests, (store.afterAll requests).privateKey purpose id = .ok key) ∧
    (∀ address purpose id key, store.directory address purpose id = some key →
      key.purpose = purpose ∧
        ∀ requests, (store.afterAll requests).directory address purpose id = some key) ∧
    (∀ id key added, store.addPrivateKey id key = .ok added →
      ∀ requests, (added.afterAll requests).privateKey key.purpose id = .ok key) ∧
    (∀ address id key added, store.addPublicKey address id key = .ok added →
      ∀ requests, (added.afterAll requests).directory address key.purpose id = some key) ∧
    (∀ address id known key, store.directory address key.purpose id = some known →
      store.addPublicKey address id key =
          (if known = key then .ok store else .error (.keyConflict key.purpose id)) ∧
        store.after (.addPublicKey address id key) = store) ∧
    ∀ (content : SignedContent) sender,
      (∀ e, content.verify sender store.directory ≠ .error (.crypto e)) ∧
      (content.verify sender store.directory = .ok () →
        ∀ requests, content.verify sender (store.afterAll requests).directory = .ok ()) := by
  have typed := reachable.isTyped
  refine ⟨?_, ?_, ?_, ?_, ?_, ?_⟩
  · intro purpose id key found
    exact ⟨typed.privateKeys _ _ _ (privateKey_eq_ok.mp found), privateKey_afterAll found⟩
  · intro address purpose id key found
    exact ⟨typed.directory _ _ _ _ found, directory_afterAll found⟩
  · intro id key added h
    exact privateKey_afterAll (privateKey_of_addPrivateKey h)
  · intro address id key added h
    exact directory_afterAll (directory_of_addPublicKey h)
  · intro address id known key found
    have result := addPublicKey_of_known found
    refine ⟨result, ?_⟩
    rw [after, result]
    split
    · rfl
    · rfl
  · intro content sender
    refine ⟨?_, ?_⟩
    · intro e failed
      have bad := content.blames_verify typed.directory sender _ failed
      exact (MailError.isBadMessage_iff.mp bad).2 e rfl
    · intro accepted requests
      refine SignedContent.verify_of_more (fun _ _ _ _ found => ?_) accepted
      exact directory_afterAll found requests

/-- Bob accepts what Ann signed. Then he gets a private key with the number of hers, and another key
comes as Ann's under that number; he still accepts it. -/
theorem keys_never_displaced_mersenne :
    let ann : Address := ⟨"ann", "example.org", by decide, by decide⟩
    let signer : PrivateKey := ⟨.signature, .mersenne⟩
    let other : PublicKey := ⟨.signature, 15, 3, by decide⟩
    let store := empty.after (.addPublicKey ann 4 signer.toPublic)
    let later := store.afterAll [.addPrivateKey 4 signer, .addPublicKey ann 4 other]
    ∃ content : SignedContent, content.verify ann store.directory = .ok () ∧
      store.addPublicKey ann 4 other = .error (.keyConflict .signature 4) ∧
      later.directory ann .signature 4 = some signer.toPublic ∧
      later.privateKey .signature 4 = .ok signer ∧
      content.verify ann later.directory = .ok () := by
  have pair := Rsa.PrivateNumbers.isPrimePair_mersenne
  have large : Rsa.Pss.minSize ≤
      Rsa.Pss.sizeOfBits (Rsa.PrivateNumbers.mersenne.toPublic.bits - 1) := by decide +kernel
  have small : Rsa.PrivateNumbers.mersenne.toPublic.size < UInt32.size := by decide +kernel
  have differs : Rsa.PrivateNumbers.mersenne.toPublic ≠ ⟨15, 3, by decide⟩ := by decide +kernel
  -- nothing else about the numbers matters, and nothing below may compute with them
  generalize Rsa.PrivateNumbers.mersenne = numbers at pair large small differs ⊢
  intro ann signer other store later
  have length : (SymmetricKey.mk (List.replicate 32 0)).bytes.length = SymmetricKey.size := rfl
  obtain ⟨envelope, _, signed⟩ := SignedContent.exists_signAndEncrypt 4
    (show signer.purpose = .signature from rfl) pair large small [72, 105] length (.ofSeed 0)
  obtain ⟨content, _, _, _, accepted⟩ := SignedContent.opened_of_signAndEncrypt signed
  have found : store.directory ann .signature 4 = some signer.toPublic := rfl
  obtain ⟨_, publicKeys, privateKeys, _, again, checks⟩ :=
    keys_never_displaced (.after (.addPublicKey ann 4 signer.toPublic) .empty : store.Reachable)
  have refused := (again ann 4 _ other found).1
  rw [if_neg fun same => differs (congrArg PublicKey.numbers same)] at refused
  have added : store.addPrivateKey 4 signer = .ok (store.after (.addPrivateKey 4 signer)) := rfl
  exact ⟨content, accepted _ _ found, refused, (publicKeys _ _ _ _ found).2 _,
    privateKeys 4 signer _ added [.addPublicKey ann 4 other],
    (checks content ann).2 (accepted _ _ found) _⟩

end Store

end SealedMail
