import SealedMail.Meta.Envelope
import SealedMail.Proofs.Bytes
import SealedMail.Proofs.Json.RoundTrip
import SealedMail.Proofs.SymmetricKey

/-!
# States taken out of their envelopes

What is found in an envelope depends on the version in front (`SealedState.decrypt_of_short`,
`SealedState.decrypt_later`, `SealedState.decrypt_known`), and one is made unless it is too large
(`SealedState.encryptRandom_eq`). The state that it was made for is the state in it, without the
deliveries, which are not written (`SealedState.decrypt_of_encryptRandom`). No envelope at all
stands for a message that was neither read nor done with (`SealedState.decrypt_nil`).
-/

namespace SealedMail

open Json (Fits)

namespace MessageState

/-- A flag is read back from its number. -/
lemma unsignedOr_toNat (b : Bool) :
    Field.unsignedOr 0 (.integer b.toNat) = .ok (if b then 1 else 0) := by
  cases b <;> rfl

/-- A state is read back from its text, without its delivery. -/
lemma ofText_toText (read done : Bool) (delivery : List Delivery) :
    ofText latestVersion (toText read done delivery) = .ok ⟨latestVersion, read, done, []⟩ := by
  obtain ⟨json, hjson⟩ : ∃ json, json = Json.ofFields [("read", .integer read.toNat),
    ("done", .integer done.toNat)] := ⟨_, rfl⟩
  have fits : Fits 1 json := by
    have bounds (b : Bool) : -0x8000000000000000 ≤ (b.toNat : Int) ∧
        (b.toNat : Int) < 0x10000000000000000 := by
      cases b <;> decide
    rw [hjson]
    refine .ofFields ?_
    simp only [List.forall_mem_cons]
    exact ⟨.integer (bounds read).1 (bounds read).2, .integer (bounds done).1 (bounds done).2, nofun⟩
  have parsed : Json.ofString? json.render = some json := (fits.mono (by decide)).ofString?_render
  have fields : json.field "read" = .integer read.toNat ∧ json.field "done" = .integer done.toNat := by
    rw [hjson]
    simp [Json.field_ofFields, Json.lookup_cons_eq_ite]
  have isObject : json.isObject = true := by
    rw [hjson]
    rfl
  have object : readObject latestVersion json.render = .ok json := by
    have nonempty : json.render.isEmpty = false := by
      rw [← Bool.not_eq_true, String.isEmpty_iff]
      intro empty
      rw [empty] at parsed
      cases parsed
    rw [readObject, nonempty, parsed]
    simp [isObject]
  have flag (b : Bool) : ((if b then 1 else 0 : UInt32) != 0) = b := by
    cases b <;> rfl
  rw [toText, ← hjson, ofText, if_neg (by decide), if_pos (by decide)]
  simp [object, fields, unsignedOr_toNat, flag]

end MessageState

namespace SealedState

variable {key : SymmetricKey}

/-! ## Opening -/

/-- Bytes without room for a version stand for an empty text. -/
lemma decrypt_of_short {b : Bytes} (short : b.length < 4) (key : SymmetricKey) :
    decrypt ⟨b, key⟩ = .ok ⟨MessageState.latestVersion, false, false, []⟩ := by
  rw [decrypt, text, Bytes.readUInt32?_eq_none.mpr short]
  rfl

/-- A state of a later version counts as read and done with. -/
lemma decrypt_later {version : UInt32} (later : MessageState.latestVersion < version)
    (rest : Bytes) (key : SymmetricKey) :
    decrypt ⟨Bytes.ofUInt32 version ++ rest, key⟩ = .ok ⟨version, true, true, []⟩ := by
  have notZero : version ≠ 0 := by
    rintro rfl
    exact absurd later (by decide)
  have notOne : version ≠ 1 := by
    rintro rfl
    exact absurd later (by decide)
  rw [decrypt, bind_eq_ok]
  refine ⟨(version, ""), ?_, ?_⟩
  · rw [text, Bytes.readUInt32?_append]
    exact if_neg (UInt32.not_le.mpr later)
  · show MessageState.ofText version "" = _
    rw [MessageState.ofText, if_neg notZero, if_neg notOne]

/-- An envelope of a known version is opened as what its text says. -/
lemma decrypt_known {version : UInt32} (known : version ≤ MessageState.latestVersion)
    {body : Bytes} {state : MessageState} :
    decrypt ⟨Bytes.ofUInt32 version ++ body, key⟩ = .ok state ↔
      ∃ text, decryptBody key version body = .ok (.ofString text) ∧
        MessageState.ofText version text = .ok state := by
  rw [decrypt, SealedState.text, Bytes.readUInt32?_append]
  simp only [if_pos known]
  cases decryptBody key version body with
  | error cause => exact ⟨nofun, nofun⟩
  | ok plain =>
    simp only [Except.ok.injEq]
    cases spelled : Bytes.toString? plain with
    | none =>
      refine ⟨nofun, ?_⟩
      rintro ⟨text, rfl, _⟩
      rw [Bytes.toString?_ofString] at spelled
      cases spelled
    | some text =>
      obtain rfl := Bytes.toString?_eq_some.mp spelled
      refine ⟨fun described => ⟨text, rfl, described⟩, ?_⟩
      rintro ⟨text', same, described⟩
      rw [same, Bytes.toString?_ofString] at spelled
      cases spelled
      exact described

/-! ## Making -/

/-- An envelope is made unless it is too large, version and all. -/
lemma encryptRandom_eq {text body : Bytes} {entropy : Entropy}
    (encrypted : key.encryptPrepended (entropy.draw SymmetricKey.randomIvSize).1 text = .ok body) :
    encryptRandom text key entropy =
      if 4 + body.length ≤ 1024 then
        .ok (Bytes.ofUInt32 MessageState.latestVersion ++ body,
          (entropy.draw SymmetricKey.randomIvSize).2)
      else .error (.invalid (.tooLarge .metadata (4 + body.length))) := by
  have checked : Limits.check {} .metadata
      (Bytes.ofUInt32 MessageState.latestVersion ++ body).length =
        if 4 + body.length ≤ 1024 then .ok ()
        else .error (.invalid (.tooLarge .metadata (4 + body.length))) := by
    rw [List.length_append, Bytes.length_ofUInt32]
    rfl
  show Random.ofExcept (encrypt (entropy.draw SymmetricKey.randomIvSize).1 text key) _ = _
  rw [encrypt, encrypted]
  show Random.ofExcept (do
      Limits.check {} .metadata (Bytes.ofUInt32 MessageState.latestVersion ++ body).length
      return Bytes.ofUInt32 MessageState.latestVersion ++ body) _ = _
  rw [checked]
  by_cases fits : 4 + body.length ≤ 1024
  · rw [if_pos fits, if_pos fits]
    rfl
  · rw [if_neg fits, if_neg fits]
    rfl

/-- A whole key encrypts any text with the vector that is drawn. -/
lemma exists_body (length : key.bytes.length = SymmetricKey.size) (text : Bytes)
    (entropy : Entropy) :
    ∃ body, key.encryptPrepended (entropy.draw SymmetricKey.randomIvSize).1 text = .ok body ∧
      body.length = if text = [] then 0 else text.length + 32 := by
  obtain ⟨body, encrypted, length_body⟩ := SymmetricKey.exists_encryptPrepended
    (SymmetricKey.isIvLength_draw entropy) length text
  refine ⟨body, encrypted, ?_⟩
  rw [length_body, Entropy.length_draw, SymmetricKey.randomIvSize, Gcm.tagSize]
  split
  · rfl
  · omega

/-- A state can be told under any key of the right length. -/
lemma exists_encryptRandom (read done : Bool) (delivery : List Delivery)
    (length : key.bytes.length = SymmetricKey.size) (entropy : Entropy) :
    ∃ envelope entropy',
      encryptRandom (.ofString (MessageState.toText read done delivery)) key entropy =
        .ok (envelope, entropy') := by
  obtain ⟨body, encrypted, length_body⟩ := exists_body length
    (.ofString (MessageState.toText read done delivery)) entropy
  have length_text : (Bytes.ofString (MessageState.toText read done delivery)).length = 19 := by
    show (Bytes.ofString (MessageState.toText read done [])).length = 19
    cases read <;> cases done <;> decide +kernel
  have fits : 4 + body.length ≤ 1024 := by
    rw [length_body, length_text]
    split
    · decide
    · decide
  exact ⟨_, _, (encryptRandom_eq encrypted).trans (if_pos fits)⟩

/-! ## Both -/

/-- Without an envelope the message is neither read nor done with. -/
lemma decrypt_nil (key : SymmetricKey) :
    decrypt ⟨[], key⟩ = .ok ⟨MessageState.latestVersion, false, false, []⟩ := rfl

/-- The state that an envelope was made for is the state in it, without the deliveries. -/
theorem decrypt_of_encryptRandom {read done : Bool} {delivery : List Delivery}
    {envelope : Bytes} {entropy entropy' : Entropy}
    (h : encryptRandom (.ofString (MessageState.toText read done delivery)) key entropy =
      .ok (envelope, entropy')) :
    decrypt ⟨envelope, key⟩ = .ok ⟨MessageState.latestVersion, read, done, []⟩ := by
  obtain ⟨iv, e₁, drawn, h⟩ := Random.bind_eq_ok.mp h
  obtain ⟨body, encrypted, h⟩ := bind_eq_ok.mp (Random.ofExcept_eq_ok.mp h).1
  obtain ⟨_, _, h⟩ := bind_eq_ok.mp h
  rw [pure_eq_ok] at h
  have plain := SymmetricKey.decryptPrepended_of_encryptPrepended (mapError_eq_ok.mp encrypted)
  rw [Random.length_of_bytes drawn] at plain
  rw [h]
  exact (decrypt_known UInt32.le_rfl).mpr
    ⟨_, plain, MessageState.ofText_toText read done delivery⟩

/-- What can be told about a message: nothing, which stands for one neither read nor done with, or
an envelope that was made for its state. -/
def Tells (key : SymmetricKey) (read done : Bool) (envelope : Bytes) : Prop :=
  (envelope = [] ∧ read = false ∧ done = false) ∨
    ∃ delivery entropy entropy',
      encryptRandom (.ofString (MessageState.toText read done delivery)) key entropy =
        .ok (envelope, entropy')

/-- What is told about a state is what is found. -/
lemma Tells.decrypt {key : SymmetricKey} {read done : Bool} {envelope : Bytes}
    (h : Tells key read done envelope) :
    decrypt ⟨envelope, key⟩ = .ok ⟨MessageState.latestVersion, read, done, []⟩ := by
  rcases h with ⟨rfl, rfl, rfl⟩ | ⟨delivery, entropy, entropy', made⟩
  · exact decrypt_nil key
  · exact decrypt_of_encryptRandom made

end SealedState

end SealedMail
