import SealedMail.Proofs.Decoding
import SealedMail.Proofs.StateSchema

/-!
# What a state can change

The state of a message is kept under a key of the account, and it is opened last, after the body was
read and its signature checked (`OpenedMessage.checkedBody`). So it cannot stand in the way of what
comes before it, and tells nothing but its version and two flags. In a message that the account sent
itself it tells nothing at all (`OpenedMessage.state_confined`).
-/

namespace SealedMail

/-- Of a later version nothing but its number is taken. -/
lemma SealedState.decrypt_of_later {sealed : SealedState} (later : 1 < sealed.version) :
    sealed.decrypt = .ok ⟨sealed.version, true, true, []⟩ := by
  obtain ⟨b, key⟩ := sealed
  cases parts : Bytes.readUInt32? b with
  | none =>
    rw [version, parts] at later
    exact absurd later (by decide)
  | some parts' =>
    obtain ⟨number, rest⟩ := parts'
    obtain rfl := Bytes.readUInt32?_eq_some.mp parts
    rw [version, parts] at later ⊢
    exact decrypt_later later rest key

namespace OpenedMessage

variable {message : OpenedMessage} {own : Address} {expand : Bytes → Except MailError Bytes}
  {verify : Bool} {keys : Directory} {first second : SealedState}

/-- The body of a message, after its signature was checked where that is asked. -/
def checkedBody (message : OpenedMessage) (own : Address)
    (expand : Bytes → Except MailError Bytes) (verify : Bool) (keys : Directory) :
    Except MailError ReceivedBody := do
  let body ← message.bodyWith own expand
  if verify then message.content.verify body.sender.address keys
  return body

/-- What is told of a message, given its body and its state. -/
def told (message : OpenedMessage) (body : ReceivedBody) (state : MessageState) : DecodedMessage :=
  ⟨message.record body state, body.sender, body.participants, body.attachments, state.delivery⟩

/-- The state comes last. -/
lemma decodeWith_eq (message : OpenedMessage) (own : Address)
    (expand : Bytes → Except MailError Bytes) (verify : Bool) (keys : Directory) :
    message.decodeWith own expand verify keys = do
      let body ← message.checkedBody own expand verify keys
      let state ← message.stateFor own body.sender.address
      return message.told body state := by
  rw [decodeWith, checkedBody, bind_assoc]
  cases verify with
  | false => simp [told]
  | true => simp [told]

/-- The body that was checked is the one that was read. -/
lemma eq_of_checkedBody {body body' : ReceivedBody}
    (read : message.bodyWith own expand = .ok body')
    (checked : message.checkedBody own expand verify keys = .ok body) : body = body' := by
  rw [checkedBody, read] at checked
  obtain ⟨_, ⟨⟩, checked⟩ := bind_eq_ok.mp checked
  cases verify with
  | false => exact pure_eq_ok.mp checked
  | true =>
    obtain ⟨_, _, same⟩ := bind_eq_ok.mp checked
    exact pure_eq_ok.mp same

/-- What comes of a message does not depend on its state, unless the state is opened when the body
of another account was checked. -/
lemma decodeWith_cases (message : OpenedMessage) (own : Address)
    (expand : Bytes → Except MailError Bytes) (verify : Bool) (keys : Directory) :
    (∃ result, ∀ state : SealedState,
      { message with state }.decodeWith own expand verify keys = result) ∨
    ∃ body, message.checkedBody own expand verify keys = .ok body ∧ body.sender.address ≠ own ∧
      ∀ state : SealedState, { message with state }.decodeWith own expand verify keys =
        state.decrypt >>= fun known => .ok (message.told body known) := by
  have stateless (state : SealedState) :
      { message with state }.checkedBody own expand verify keys =
        message.checkedBody own expand verify keys := rfl
  cases checked : message.checkedBody own expand verify keys with
  | error e =>
    refine .inl ⟨.error e, fun state => ?_⟩
    rw [decodeWith_eq, stateless, checked]
    rfl
  | ok body =>
    by_cases self : body.sender.address = own
    · refine .inl ⟨.ok (message.told body .selfSent), fun state => ?_⟩
      rw [decodeWith_eq, stateless, checked]
      show (if body.sender.address = own then _ else _ : Except MailError MessageState) >>= _ = _
      rw [if_pos self]
      rfl
    · refine .inr ⟨body, rfl, self, fun state => ?_⟩
      rw [decodeWith_eq, stateless, checked]
      show (if body.sender.address = own then _ else _ : Except MailError MessageState) >>= _ = _
      rw [if_neg self]
      rfl

/-- Whatever is told of a message with one state and with another, it is the same but for what the
states themselves tell. -/
lemma told_eq (body : ReceivedBody) (state state' : MessageState)
    (delivery : state'.delivery = state.delivery) :
    message.told body state' = { message.told body state with
      record := { (message.told body state).record with
        stateVersion := state'.version, read := state'.read, done := state'.done } } := by
  rw [told, told, delivery]
  rfl

/-- Once the body was checked, only the state can be refused. -/
lemma error_of_told {body : ReceivedBody} {state : SealedState} {e : MailError}
    (failed : (state.decrypt >>= fun known => .ok (message.told body known)) = .error e) :
    state.decrypt = .error e := by
  cases opened : state.decrypt with
  | error e' =>
    rw [opened] at failed
    cases failed
    rfl
  | ok known =>
    rw [opened] at failed
    cases failed

/-- The state interferes with nothing else. Take two messages that differ in nothing but their
states, and decode both. If the sender named in the body is the account itself, the results are the
same, also where they are errors. If both states are of later versions, either both messages are
refused, with the same error, or both are accepted, with the same result but for the version. In any
case the first is refused for a reason for which the second is refused as well, unless its own state
cannot be opened, and what is accepted is the same but for the version and the two flags. -/
theorem state_confined (message : OpenedMessage) (own : Address)
    (expand : Bytes → Except MailError Bytes) (verify : Bool) (keys : Directory)
    (first second : SealedState) :
    let result := { message with state := first }.decodeWith own expand verify keys
    let result' := { message with state := second }.decodeWith own expand verify keys
    (∀ body, message.bodyWith own expand = .ok body → body.sender.address = own →
      result = result') ∧
    (1 < first.version → 1 < second.version →
      (∀ e, result = .error e ↔ result' = .error e) ∧
      ∀ decoded decoded', result = .ok decoded → result' = .ok decoded' →
        decoded' = { decoded with
          record := { decoded.record with stateVersion := decoded'.record.stateVersion } }) ∧
    (∀ e, result = .error e → result' = .error e ∨ first.decrypt = .error e) ∧
    ∀ decoded decoded', result = .ok decoded → result' = .ok decoded' →
      decoded' = { decoded with
        record := { decoded.record with
          stateVersion := decoded'.record.stateVersion
          read := decoded'.record.read
          done := decoded'.record.done } } := by
  intro result result'
  obtain ⟨outcome, all⟩ | ⟨body, checked, other, opened⟩ :=
    message.decodeWith_cases own expand verify keys
  · have same : result' = result := (all second).trans (all first).symm
    rw [same]
    refine ⟨fun _ _ _ => rfl, fun _ _ => ⟨fun _ => Iff.rfl, ?_⟩, fun _ => .inl, ?_⟩
    · intro decoded decoded' accepted accepted'
      cases accepted.symm.trans accepted'
      rfl
    · intro decoded decoded' accepted accepted'
      cases accepted.symm.trans accepted'
      rfl
  · have opened₁ : result = first.decrypt >>= _ := opened first
    have opened₂ : result' = second.decrypt >>= _ := opened second
    rw [opened₁, opened₂]
    refine ⟨?_, ?_, ?_, ?_⟩
    · intro body' read sent
      rw [eq_of_checkedBody read checked] at other
      exact absurd sent other
    · intro later later'
      rw [SealedState.decrypt_of_later later, SealedState.decrypt_of_later later']
      refine ⟨fun e => ⟨nofun, nofun⟩, ?_⟩
      rintro _ _ ⟨⟩ ⟨⟩
      rfl
    · intro e failed
      exact .inr (error_of_told failed)
    · intro decoded decoded' accepted accepted'
      obtain ⟨state, known, ⟨⟩⟩ := bind_eq_ok.mp accepted
      obtain ⟨state', known', ⟨⟩⟩ := bind_eq_ok.mp accepted'
      refine told_eq body state state' ?_
      -- deliveries are never told
      exact (SealedState.Describes.of_decrypt known').version_eq.2.trans
        (SealedState.Describes.of_decrypt known).version_eq.2.symm

/-- A message that Ann sent to Bob with states of two later versions, and as Ann reads it herself,
with one of these states and with one that cannot be opened. -/
theorem state_confined_later :
    let ann : Address := ⟨"ann", "example.org", by decide, by decide⟩
    let bob : Address := ⟨"bob", "example.org", by decide, by decide⟩
    let date : DateTime := ⟨⟨2024, 2, 29, 12, 30, 0, 0, 60⟩, by decide⟩
    let body : Body := ⟨⟨ann, "Ann", "", none⟩, .ofList [bob], date, "Hello", "Bye", []⟩
    let key : SymmetricKey := ⟨List.replicate 32 0⟩
    let sent (state : SealedState) : OpenedMessage :=
      ⟨7, 0, date, key, ⟨4, [], body.toBytes⟩, state⟩
    let later : SealedState := ⟨Bytes.ofUInt32 7 ++ [1, 2, 3], key⟩
    let another : SealedState := ⟨Bytes.ofUInt32 9 ++ [], ⟨[]⟩⟩
    let broken : SealedState := ⟨Bytes.ofUInt32 1 ++ [1, 2, 3], key⟩
    let keys : Directory := fun _ _ _ => none
    (∃ decoded decoded', (sent later).decode bob .none false keys = .ok decoded ∧
      (sent another).decode bob .none false keys = .ok decoded' ∧
      decoded.record.stateVersion = 7 ∧
      decoded' = { decoded with record := { decoded.record with stateVersion := 9 } }) ∧
    (∀ state, broken.decrypt ≠ .ok state) ∧
    (sent broken).decode ann .none false keys = (sent later).decode ann .none false keys := by
  intro ann bob date body key sent later another broken keys
  have readable : body.IsReadable :=
    ⟨by decide, ⟨bob, .head _⟩, by decide, List.forall_mem_nil _, by decide⟩
  have data (state : SealedState) : (sent state).content.data = body.toBytes := by
    simp only [sent]
  refine ⟨?_, ?_, ?_⟩
  · have known : (sent later).stateFor bob ann = .ok ⟨7, true, true, []⟩ :=
      (if_neg (by decide)).trans (SealedState.decrypt_later (by decide) [1, 2, 3] key)
    have known' : (sent another).stateFor bob ann = .ok ⟨9, true, true, []⟩ :=
      (if_neg (by decide)).trans (SealedState.decrypt_later (by decide) [] ⟨[]⟩)
    have decoded := decode_toBytes (data later) readable known keys
    have decoded' := decode_toBytes (data another) readable known' keys
    obtain ⟨_, versions, _⟩ := state_confined (sent later) bob
      (Compression.decompress .none) false keys later another
    exact ⟨_, _, decoded, decoded', rfl,
      (versions (by decide) (by decide)).2 _ _ decoded decoded'⟩
  · intro state opened
    cases opened
  · have read : (sent broken).bodyWith ann (Compression.decompress .none) =
        .ok (body.receivedBy ann) :=
      bind_eq_ok.mpr ⟨_, congrArg Except.ok (data broken),
        ReceivedBody.ofBytes_toBytes.mpr ⟨readable, rfl⟩⟩
    exact (state_confined (sent broken) ann (Compression.decompress .none) false keys broken later).1
      _ read rfl

end OpenedMessage

end SealedMail
