import SealedMail.Incoming.Decoding
import SealedMail.Proofs.Body

/-!
# Decoded messages

What a message that was decoded has come through, in whatever way its data was expanded
(`OpenedMessage.decodeWith_eq_ok`). The signature is one of these steps and changes nothing that the
others give, so checking it is a filter: it lets through what is accepted without it and signed by
the sender that the body names (`OpenedMessage.decoded_verified_iff`).
-/

namespace SealedMail

/-- Content is verified by a signature key of the sender that the directory knows. -/
lemma SignedContent.verify_eq_ok {content : SignedContent} {sender : Address} {keys : Directory} :
    content.verify sender keys = .ok () ↔
      ∃ key, keys sender .signature content.keyId = some key ∧ key.purpose = .signature ∧
        Rsa.Pss.verify key.numbers content.data content.signature = true := by
  rw [verify]
  cases keys sender .signature content.keyId with
  | none => simp
  | some key =>
    simp only [Option.some.injEq, exists_eq_left']
    cases result : key.verify content.data content.signature with
    | error e =>
      refine ⟨nofun, fun h => ?_⟩
      rw [PublicKey.verify_eq_ok.mpr ⟨h.1, h.2.symm⟩] at result
      cases result
    | ok holds =>
      obtain ⟨purpose, verdict⟩ := PublicKey.verify_eq_ok.mp result
      cases holds with
      | true => exact ⟨fun _ => ⟨purpose, verdict.symm⟩, fun _ => rfl⟩
      | false =>
        refine ⟨nofun, fun h => ?_⟩
        rw [h.2] at verdict
        cases verdict

namespace OpenedMessage

variable {message : OpenedMessage} {own : Address} {expand : Bytes → Except MailError Bytes}
  {keys : Directory} {decoded : DecodedMessage}

/-- A message is decoded if its body is read, its signature is right where that is asked, and its
state is known. -/
lemma decodeWith_eq_ok {verify : Bool} :
    message.decodeWith own expand verify keys = .ok decoded ↔
      ∃ body state, message.bodyWith own expand = .ok body ∧
        (verify = true → message.content.verify body.sender.address keys = .ok ()) ∧
        message.stateFor own body.sender.address = .ok state ∧
        decoded = ⟨message.record body state, body.sender, body.participants, body.attachments,
          state.delivery⟩ := by
  rw [decodeWith, bind_eq_ok]
  refine exists_congr fun body => ?_
  cases verify with
  | true =>
    simp only [if_true, bind_eq_ok, pure_eq_ok, forall_const]
    refine ⟨?_, ?_⟩
    · rintro ⟨read, _, verified, state, known, rfl⟩
      exact ⟨state, read, verified, known, rfl⟩
    · rintro ⟨state, read, verified, known, rfl⟩
      exact ⟨read, (), verified, state, known, rfl⟩
  | false =>
    simp only [Bool.false_eq_true, if_false, bind_eq_ok, pure_eq_ok, false_implies, true_and]
    refine ⟨?_, ?_⟩
    · rintro ⟨read, state, known, rfl⟩
      exact ⟨state, read, known, rfl⟩
    · rintro ⟨state, read, known, rfl⟩
      exact ⟨read, state, known, rfl⟩

/-- A message with an uncompressed body that can be read is decoded, if its state is known. -/
lemma decode_toBytes {body : Body} {state : MessageState}
    (data : message.content.data = body.toBytes) (readable : body.IsReadable)
    (known : message.stateFor own body.sender.address = .ok state) (keys : Directory) :
    message.decode own .none false keys =
      .ok ⟨message.record (body.receivedBy own) state, body.sender.shown,
        body.participantsFor own, AttachmentInfo.numbered 0 body.attachments, state.delivery⟩ := by
  have expanded : Compression.decompress .none message.content.data = .ok body.toBytes :=
    congrArg Except.ok data
  have read : message.bodyWith own (Compression.decompress .none) = .ok (body.receivedBy own) :=
    bind_eq_ok.mpr ⟨_, expanded, ReceivedBody.ofBytes_toBytes.mpr ⟨readable, rfl⟩⟩
  exact decodeWith_eq_ok.mpr ⟨_, state, read, nofun, known, rfl⟩

/-- What a decoded message tells is what its reader finds in the data that was signed. -/
lemma body_of_decodeWith {verify : Bool}
    (h : message.decodeWith own expand verify keys = .ok decoded) :
    (do ReceivedBody.ofBytes own (← expand message.content.data)) =
      .ok ⟨decoded.sender, decoded.participants, decoded.record.dateSent, decoded.record.text,
        decoded.record.footer, decoded.attachments⟩ ∧
      decoded.record.sender = decoded.sender.address := by
  obtain ⟨body, state, read, _, _, rfl⟩ := decodeWith_eq_ok.mp h
  exact ⟨read, rfl⟩

/-- Checking signatures is a filter. With the check, exactly those messages are accepted that are
accepted without it, with the same result, and whose signature over the data verifies under a
signature key that the directory has of the sender named in the body, under the number that the
message gives. And whatever else two accepted messages are made of, and whatever the directories,
with the same signed data they tell the same account the same. -/
theorem decoded_verified_iff (message : OpenedMessage) (own : Address)
    (expand : Bytes → Except MailError Bytes) (keys : Directory) (decoded : DecodedMessage) :
    (message.decodeWith own expand true keys = .ok decoded ↔
      message.decodeWith own expand false keys = .ok decoded ∧
        ∃ key, keys decoded.sender.address .signature decoded.record.signatureKeyId = some key ∧
          key.purpose = .signature ∧
          Rsa.Pss.verify key.numbers message.content.data message.content.signature = true) ∧
    (message.decodeWith own expand true keys = .ok decoded →
      ∀ (other : OpenedMessage) (keys' : Directory) (decoded' : DecodedMessage),
        other.content.data = message.content.data →
        other.decodeWith own expand true keys' = .ok decoded' →
        decoded'.sender = decoded.sender ∧
          decoded'.record.sender = decoded.record.sender ∧
          decoded'.participants = decoded.participants ∧
          decoded'.record.dateSent = decoded.record.dateSent ∧
          decoded'.record.text = decoded.record.text ∧
          decoded'.record.footer = decoded.record.footer ∧
          decoded'.attachments = decoded.attachments) := by
  refine ⟨⟨?_, ?_⟩, ?_⟩
  · intro h
    obtain ⟨body, state, read, verified, known, rfl⟩ := decodeWith_eq_ok.mp h
    refine ⟨decodeWith_eq_ok.mpr ⟨body, state, read, nofun, known, rfl⟩, ?_⟩
    exact SignedContent.verify_eq_ok.mp (verified rfl)
  · rintro ⟨h, signed⟩
    obtain ⟨body, state, read, _, known, rfl⟩ := decodeWith_eq_ok.mp h
    refine decodeWith_eq_ok.mpr ⟨body, state, read, fun _ => ?_, known, rfl⟩
    exact SignedContent.verify_eq_ok.mpr signed
  · intro h other keys' decoded' data h'
    obtain ⟨body, sender⟩ := body_of_decodeWith h
    obtain ⟨body', sender'⟩ := body_of_decodeWith h'
    rw [data, body, Except.ok.injEq, ReceivedBody.mk.injEq] at body'
    obtain ⟨same, participants, dateSent, text, footer, attachments⟩ := body'
    rw [sender, sender', same]
    exact ⟨rfl, rfl, participants.symm, dateSent.symm, text.symm, footer.symm, attachments.symm⟩

end OpenedMessage

end SealedMail
