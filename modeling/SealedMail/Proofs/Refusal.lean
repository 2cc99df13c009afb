import SealedMail.Proofs.EndToEnd
import SealedMail.Proofs.KeySafeSchema
import SealedMail.Proofs.Schema
import SealedMail.Proofs.StateSchema

/-!
# Refused messages

Anything may come in as a message. Where it is refused, its own bytes are to blame, and never a
collaborator or the cipher, so that it can be put aside while others go on
(`WireMessage.refused_for_its_bytes`). Each step of reading a message has a lemma here that says so
of its own failures (`BlamesMessage`), from the outermost envelope to the body and the state, of
which more is known (`ReceivedBody.fails_ofBytes`, `SealedState.fails_decrypt`).

One step could fail otherwise: a key is asked for what it is for before it verifies a signature. So
the directory must give only keys of the purpose that was asked for (`Directory.IsTyped`). No such
thing is asked of the ring of private keys, since a key of the wrong kind is one that does not open
the key safe.
-/

namespace SealedMail

variable {α β σ : Type}

/-! ## Failures -/

/-- All errors but inconsistencies and those of the cipher blame the message. -/
lemma MailError.isBadMessage_iff {e : MailError} :
    e.isBadMessage = true ↔ (∀ i, e ≠ .integrity i) ∧ ∀ c, e ≠ .crypto c := by
  cases e with
  | integrity i => exact ⟨nofun, fun h => absurd rfl (h.1 i)⟩
  | crypto c => exact ⟨nofun, fun h => absurd rfl (h.2 c)⟩
  | _ => exact ⟨fun _ => ⟨nofun, nofun⟩, fun _ => rfl⟩

/-- If the computation fails, the bytes of the message are to blame. -/
def BlamesMessage (x : Except MailError α) : Prop := ∀ e, x = .error e → e.isBadMessage = true

namespace BlamesMessage

lemma ok (a : α) : BlamesMessage (.ok a) := FailsWith.ok a

lemma error {e : MailError} (bad : e.isBadMessage = true) :
    BlamesMessage (.error e : Except MailError α) := FailsWith.error bad

/-- Whatever the fault is, it is one of the bytes. -/
lemma of_fails {x : Except MailError α} (fails : FailsWith MailError.IsFault x) :
    BlamesMessage x := by
  intro e failed
  obtain ⟨fault, rfl⟩ := fails e failed
  rfl

lemma invalid (fault : Fault) : BlamesMessage (.error (.invalid fault) : Except MailError α) :=
  of_fails (.invalid fault)

lemma bind {x : Except MailError α} {f : α → Except MailError β} (first : BlamesMessage x)
    (later : ∀ a, BlamesMessage (f a)) : BlamesMessage (x >>= f) := FailsWith.bind first later

lemma ite {p : Prop} [Decidable p] {x y : Except MailError α} (yes : BlamesMessage x)
    (no : BlamesMessage y) : BlamesMessage (if p then x else y) := FailsWith.ite yes no

/-- A check that stops the computation or lets it go on. -/
lemma check {p : Prop} [Decidable p] {stop : Except MailError Unit}
    {rest : Unit → Except MailError α} (stopped : BlamesMessage stop)
    (later : BlamesMessage (rest ())) :
    BlamesMessage (if p then stop >>= rest else rest ()) :=
  ite (bind stopped fun _ => later) later

end BlamesMessage

/-- Steps over a state blame the message if each of them does. -/
lemma MailM.blames_bind {x : MailM σ α} {f : α → MailM σ β} (first : ∀ s, BlamesMessage (x s).1)
    (later : ∀ a s, BlamesMessage (f a s).1) (s : σ) : BlamesMessage ((x >>= f) s).1 := by
  cases run : x s with
  | mk result s' =>
    cases result with
    | error e =>
      rw [bind_error run]
      apply BlamesMessage.error
      apply first s
      rw [run]
    | ok a =>
      rw [bind_ok run]
      exact later a s'

/-! ## Sizes and keys -/

/-- A part beyond its limit is blamed on the message. -/
lemma Limits.blames_check (limits : Limits) (part : Part) (size : Nat) :
    BlamesMessage (limits.check part size) := .ite (.ok ()) (.invalid _)

/-- Parts beyond the limits are blamed on the message. -/
lemma WireMessage.blames_checkSize (message : WireMessage) (limits : Limits) :
    BlamesMessage (message.checkSize limits) :=
  .bind (limits.blames_check _ _) fun _ => .bind (limits.blames_check _ _) fun _ =>
    limits.blames_check _ _

namespace KeySafe

/-- A key safe that cannot be opened is blamed on the message. -/
lemma blames_decrypt (keys : KeyRing σ) (b : Bytes) (s : σ) :
    BlamesMessage (decrypt keys b s).1 := by
  intro e failed
  obtain ⟨_, rfl⟩ | ⟨_, _, _, rfl⟩ | ⟨_, _, _, _, rfl⟩ :=
    decrypt_eq_error (Prod.ext failed (Eq.refl (decrypt keys b s).2))
  · rfl
  · rfl
  · rfl

end KeySafe

/-! ## Content -/

namespace SignedContent

/-- Content that cannot be decrypted is blamed on the message. -/
lemma blames_decrypt (key : SymmetricKey) (ciphertext : Bytes) :
    BlamesMessage (decrypt key ciphertext) := by
  rw [decrypt]
  cases key.decrypt SymmetricKey.contentIv ciphertext with
  | error cause => exact .invalid _
  | ok plain =>
    cases parts : ofBytes plain with
    | error fault => simpa only [parts] using .invalid _
    | ok content => simpa only [parts] using .ok _

end SignedContent

/-- Data that cannot be expanded is blamed on the message. -/
lemma Compression.blames_decompress (mode : Compression) (b : Bytes) :
    BlamesMessage (mode.decompress b) := by
  cases mode with
  | none => exact .ok _
  | gzip =>
    rw [decompress]
    cases Gzip.decompress? b with
    | none => exact .invalid _
    | some data => exact .ok _

/-! ## Signatures -/

/-- A key that is given is of the purpose that was asked for. -/
def Directory.IsTyped (keys : Directory) : Prop :=
  ∀ address purpose id key, keys address purpose id = some key → key.purpose = purpose

/-- A directory made of a list gives only keys for the purpose that was asked for. -/
lemma Directory.isTyped_ofList (entries : List (Address × UInt32 × PublicKey)) :
    (Directory.ofList (fun purpose key => key.purpose = purpose) entries).IsTyped := by
  intro address purpose id key given
  obtain ⟨⟨owner, keyId, known⟩, _, found⟩ := List.exists_of_findSome?_eq_some given
  simp only [Option.ite_none_right_eq_some, decide_eq_true_eq, Option.some.injEq] at found
  obtain ⟨⟨_, _, fits⟩, rfl⟩ := found
  exact fits

/-- Only a key of another purpose could refuse to verify. -/
lemma SignedContent.blames_verify {keys : Directory} (typed : keys.IsTyped)
    (content : SignedContent) (sender : Address) : BlamesMessage (content.verify sender keys) := by
  rw [verify]
  cases given : keys sender .signature content.keyId with
  | none => exact .error rfl
  | some key =>
    have verified : key.verify content.data content.signature = .ok _ :=
      PublicKey.verify_eq_ok.mpr ⟨typed _ _ _ _ given, rfl⟩
    simp only [verified]
    cases Rsa.Pss.verify key.numbers content.data content.signature with
    | true => exact .ok ()
    | false => exact .error rfl

/-! ## Messages -/

/-- A message that cannot be opened is blamed itself. -/
lemma WireMessage.blames_decrypt (message : WireMessage) (limits : Limits) (ring : KeyRing σ)
    (privateDataKey : SymmetricKey) (s : σ) :
    BlamesMessage (message.decrypt limits ring privateDataKey s).1 := by
  rw [decrypt]
  apply MailM.blames_bind
  · intro s
    exact message.blames_checkSize limits
  intro _
  apply MailM.blames_bind (KeySafe.blames_decrypt ring message.keySafe)
  intro key
  apply MailM.blames_bind
  · intro s
    exact SignedContent.blames_decrypt key message.content
  intro content s
  exact .ok _

/-- A message that cannot be decoded is blamed itself. -/
lemma OpenedMessage.blames_decode (message : OpenedMessage) (own : Address) (mode : Compression)
    (verify : Bool) {keys : Directory} (typed : keys.IsTyped) :
    BlamesMessage (message.decode own mode verify keys) := by
  rw [decode, decodeWith]
  apply BlamesMessage.bind
  · apply BlamesMessage.bind (mode.blames_decompress _)
    exact fun b => .of_fails (ReceivedBody.fails_ofBytes own b)
  intro body
  have state : BlamesMessage (message.stateFor own body.sender.address) := by
    exact .ite (.ok _) (.of_fails message.state.fails_decrypt)
  apply BlamesMessage.check (message.content.blames_verify typed _)
  apply BlamesMessage.bind state
  intro state
  exact .ok _

/-- A message that is refused has itself to blame. Whatever stands in its key safe, its content and
its metadata, whatever the limits, whichever ring of private keys is asked, and whether signatures
are checked or not: if opening it fails, or decoding what was opened, the error says that the bytes
of the message are bad. So it is neither an inconsistency nor a failure of the cipher. The directory
has only to give keys of the purpose it is asked for. -/
theorem WireMessage.refused_for_its_bytes (message : WireMessage) (limits : Limits)
    (ring : KeyRing σ) (privateDataKey : SymmetricKey) (own : Address) (mode : Compression)
    (verify : Bool) {keys : Directory} (typed : keys.IsTyped) (s : σ) :
    (∀ e s', message.decrypt limits ring privateDataKey s = (.error e, s') →
      e.isBadMessage = true ∧ (∀ i, e ≠ .integrity i) ∧ ∀ c, e ≠ .crypto c) ∧
    (∀ opened s', message.decrypt limits ring privateDataKey s = (.ok opened, s') →
      ∀ e, opened.decode own mode verify keys = .error e →
        e.isBadMessage = true ∧ (∀ i, e ≠ .integrity i) ∧ ∀ c, e ≠ .crypto c) := by
  refine ⟨?_, ?_⟩
  · intro e s' failed
    have bad : e.isBadMessage = true := by
      apply message.blames_decrypt limits ring privateDataKey s
      rw [failed]
    exact ⟨bad, MailError.isBadMessage_iff.mp bad⟩
  · intro opened s' _ e failed
    have bad := opened.blames_decode own mode verify typed e failed
    exact ⟨bad, MailError.isBadMessage_iff.mp bad⟩

/-- Bob knows a key of Ann's, but not the one that she signed with. -/
theorem WireMessage.refused_for_its_bytes_unknown_key :
    let ann : Address := ⟨"ann", "example.org", by decide, by decide⟩
    let bob : Address := ⟨"bob", "example.org", by decide, by decide⟩
    let date : DateTime := ⟨⟨2024, 2, 29, 12, 30, 0, 0, 60⟩, by decide⟩
    let body : Body := ⟨⟨ann, "Ann", "", none⟩, .ofList [bob], date, "Hello", "Bye", []⟩
    let recipient : PrivateKey := ⟨.encryption, .mersenne⟩
    let signer : PrivateKey := ⟨.signature, .mersenne⟩
    let keys := Directory.ofList (fun purpose key => key.purpose = purpose)
      [(ann, 5, signer.toPublic)]
    ∃ keySafe content opened e,
      WireMessage.decrypt ⟨7, 0, date, keySafe, content, []⟩
        ⟨keySafe.length, content.length, 0, 0⟩ (KeyRing.ofList (fun _ _ => true) [(3, recipient)])
        ⟨List.replicate 32 0⟩ () = (.ok opened, ()) ∧
      opened.content.data = body.toBytes ∧
      opened.decode bob .none true keys = .error e ∧ e.isBadMessage = true := by
  have pair := Rsa.PrivateNumbers.isPrimePair_mersenne
  have room : KeySafe.objectSize + 2 * Sha512.size + 2 ≤
      Rsa.PrivateNumbers.mersenne.toPublic.size := by decide +kernel
  have large : Rsa.Pss.minSize ≤
      Rsa.Pss.sizeOfBits (Rsa.PrivateNumbers.mersenne.toPublic.bits - 1) := by decide +kernel
  have small : Rsa.PrivateNumbers.mersenne.toPublic.size < UInt32.size := by decide +kernel
  -- nothing else about the numbers matters, and nothing below may compute with them
  generalize Rsa.PrivateNumbers.mersenne = numbers at pair room large small ⊢
  intro ann bob date body recipient signer keys
  obtain ⟨keySafe, key, entropy, generated, length, _⟩ :=
    KeySafe.exists_generate 3 (show recipient.toPublic.purpose = .encryption from rfl) room
      (.ofSeed 0)
  obtain ⟨content, entropy', signed⟩ :=
    SignedContent.exists_signAndEncrypt 4 (show signer.purpose = .signature from rfl) pair large
      small body.toBytes length entropy
  have given : (KeyRing.ofList (fun _ _ => true) [(3, recipient)] : KeyRing Unit) .encryption 3 () =
      (.ok recipient, ()) := rfl
  have found := KeySafe.decrypt_of_generate pair generated given
  obtain ⟨parts, opened, keyId, data, _⟩ := SignedContent.opened_of_signAndEncrypt signed
  let message : WireMessage := ⟨7, 0, date, keySafe, content, []⟩
  let limits : Limits := ⟨keySafe.length, content.length, 0, 0⟩
  let privateDataKey : SymmetricKey := ⟨List.replicate 32 0⟩
  have size : message.checkSize limits = .ok () :=
    WireMessage.checkSize_ok (Nat.le_refl _) (Nat.le_refl _) (Nat.le_refl _)
  have decrypted : message.decrypt limits _ privateDataKey () = (.ok _, ()) :=
    WireMessage.decrypt_ok size found opened
  have readable : body.IsReadable :=
    ⟨by decide, ⟨bob, .head _⟩, by decide, List.forall_mem_nil _, by decide⟩
  have unknown : parts.verify ann keys = .error (.verificationKeyMissing ann 4) := by
    have missing : keys ann .signature 4 = none := rfl
    rw [SignedContent.verify, keyId, missing]
  have expanded : Compression.decompress .none parts.data = .ok body.toBytes :=
    congrArg Except.ok data
  have read : OpenedMessage.bodyWith ⟨7, 0, date, key, parts, ⟨[], privateDataKey⟩⟩ bob
      (Compression.decompress .none) = .ok (body.receivedBy bob) :=
    bind_eq_ok.mpr ⟨_, expanded, ReceivedBody.ofBytes_toBytes.mpr ⟨readable, rfl⟩⟩
  have refused : OpenedMessage.decode ⟨7, 0, date, key, parts, ⟨[], privateDataKey⟩⟩ bob .none true
      keys = .error (.verificationKeyMissing ann 4) := by
    rw [OpenedMessage.decode, OpenedMessage.decodeWith, read]
    show (parts.verify ann keys >>= _) = _
    rw [unknown]
    rfl
  obtain ⟨_, decoding⟩ := message.refused_for_its_bytes limits _ privateDataKey bob .none true
    (Directory.isTyped_ofList _) ()
  exact ⟨keySafe, content, _, _, decrypted, data, refused, (decoding _ _ decrypted _ refused).1⟩

end SealedMail
