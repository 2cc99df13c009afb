import SealedMail.Error.Message
import SealedMail.KeyPair

/-!
# Key rings

Where keys come from when a message is read: the user's own private keys, and the public keys of
others. A ring of private keys may keep a record of its own, such as a cache, that changes when it
is asked.
-/

namespace SealedMail

/-- The public keys of accounts, by purpose and number. -/
abbrev Directory := Address → KeyPurpose → UInt32 → Option PublicKey

/-- The user's private keys, by purpose and number, given by something with a state. -/
abbrev KeyRing (σ : Type) := KeyPurpose → UInt32 → StateM σ (Except LookupError PrivateKey)

/-- The first listed public key with the given owner and number that fits the purpose. -/
def Directory.ofList (fits : KeyPurpose → PublicKey → Bool)
    (entries : List (Address × UInt32 × PublicKey)) : Directory := fun address purpose id =>
  entries.findSome? fun (owner, keyId, key) =>
    if owner = address ∧ keyId = id ∧ fits purpose key then some key else none

/-- The first listed private key with the given number that fits the purpose. -/
def KeyRing.ofList {σ : Type} (fits : KeyPurpose → PrivateKey → Bool)
    (entries : List (UInt32 × PrivateKey)) : KeyRing σ := fun purpose id =>
  let found := entries.findSome? fun (keyId, key) =>
    if keyId = id ∧ fits purpose key then some key else none
  pure <| match found with
    | some key => .ok key
    | none => .error (.other s!"no {(RecordName.privateKey purpose id).description}")

/-- Computations that change a state, also where they fail with the error of a message. -/
abbrev MailM (σ : Type) := ExceptT MailError (StateM σ)

namespace MailM

/-- A result that does not depend on the state. -/
def ofExcept {σ α : Type} (result : Except MailError α) : MailM σ α := ExceptT.mk (pure result)

end MailM

end SealedMail
