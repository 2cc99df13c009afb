import SealedMail.Proofs.Attachment.Delivery
import SealedMail.Proofs.Digest

/-!
# Delivery behind a check of digests

A check in front of a factory lets a sink be closed if the digest of what it got is the one its slot
names. With a factory that never fails behind it, such a payload is accepted (`accepts_checked`).
What is delivered through the check is delivered to the factory behind it, whatever that may refuse,
and has the digest that its slot names (`Delivered.of_checked`).
-/

namespace SealedMail

variable {σ κ : Type} {factory : SinkFactory σ κ}

/-- The slot names the digest of the payload, in any letter case. -/
def Slot.Names (slot : Slot) (content : Bytes) : Prop :=
  slot.hash.toList.map Char.toLower = (Hex.encode (Sha512.digest content)).toList

/-- Digits are written in small letters. -/
lemma Hex.map_toLower_encode (b : Bytes) :
    (Hex.encode b).toList.map Char.toLower = (Hex.encode b).toList := by
  have lower : ∀ n < 16, (Hex.digit n).toLower = Hex.digit n := by decide
  rw [Hex.encode, String.toList_ofList]
  induction b with
  | nil => rfl
  | cons x b ih =>
    have bound : x.toNat < 256 := x.toNat_lt
    rw [List.flatMap_cons, List.map_append, ih, Hex.encodeByte, List.map_cons, List.map_cons,
      List.map_nil, lower _ (by omega), lower _ (by omega)]

namespace SinkFactory

/-- The check has taken the payload for the slot. -/
structure Checks (slot : Slot) (content : Bytes) (check : DigestCheck) : Prop where
  index : check.index = slot.index
  hash : check.hash = slot.hash
  took : check.hasher.Took Sha512.variant content

/-- A check begins with nothing taken. -/
lemma checks_start (slot : Slot) : Checks slot [] (.start slot) :=
  ⟨rfl, rfl, Digest.Hasher.took_start Sha512.blockSize_pos⟩

/-- A check that is updated has taken the bytes as well. -/
lemma Checks.update {slot : Slot} {content : Bytes} {check : DigestCheck}
    (checks : Checks slot content check) (b : Bytes) :
    Checks slot (content ++ b) (check.update b) :=
  ⟨checks.index, checks.hash, checks.took.update Sha512.blockSize_pos b⟩

/-- A check that is restarted has taken nothing. -/
lemma Checks.restart {slot : Slot} {content : Bytes} {check : DigestCheck}
    (checks : Checks slot content check) : Checks slot [] check.restart :=
  ⟨checks.index, checks.hash, Digest.Hasher.took_start Sha512.blockSize_pos⟩

/-- The check holds exactly if the slot names what was taken. -/
lemma Checks.isRight_iff {slot : Slot} {content : Bytes} {check : DigestCheck}
    (checks : Checks slot content check) : check.isRight = true ↔ slot.Names content := by
  have digest : check.hasher.finish = Sha512.digest content :=
    checks.took.finish Sha512.blockSize_pos
  rw [DigestCheck.isRight, checks.hash, digest]
  exact beq_iff_eq

/-- A checked sink is made with a check of its slot. -/
lemma make_checked {slot : Slot} {own : κ} {s s' : σ}
    (made : factory.make slot s = (.ok own, s')) :
    factory.checked.make slot s = (.ok (.start slot, own), s') := MailM.bind_ok made

/-- A checked sink was made with a check of its slot. -/
lemma of_make_checked {slot : Slot} {own : DigestCheck × κ} {s s' : σ}
    (made : factory.checked.make slot s = (.ok own, s')) :
    own.1 = .start slot ∧ factory.make slot s = (.ok own.2, s') := by
  cases inner : factory.make slot s with
  | mk result s₁ =>
    cases result with
    | error e =>
      have failed : factory.checked.make slot s = (.error e, s₁) := MailM.bind_error inner
      rw [failed] at made
      cases made
    | ok own' =>
      rw [make_checked inner] at made
      cases made
      exact ⟨rfl, rfl⟩

/-- The check sees all that is written, and the sink behind it as well. -/
lemma write_checked (b : Bytes) (check : DigestCheck) (own : κ) (s : σ) :
    factory.checked.sink.write b ((check, own), s) =
      ((factory.sink.write b (own, s)).1,
        (check.update b, (factory.sink.write b (own, s)).2.1),
        (factory.sink.write b (own, s)).2.2) := rfl

/-- A sink is closed if its check holds. -/
lemma close_checked {check : DigestCheck} {own own' : κ} {s s' : σ}
    (right : check.isRight = true) (closed : factory.sink.close (own, s) = (.ok (), own', s')) :
    factory.checked.sink.close ((check, own), s) = (.ok (), (check.restart, own'), s') := by
  simp only [checked, Sink.within, Sink.checked, right, if_true, closed]

/-- A sink that was closed had a check that holds. -/
lemma of_close_checked {check : DigestCheck} {own : κ} {own' : DigestCheck × κ} {s s' : σ}
    (closed : factory.checked.sink.close ((check, own), s) = (.ok (), own', s')) :
    check.isRight = true ∧ factory.sink.close (own, s) = (.ok (), own'.2, s') := by
  simp only [checked, Sink.within, Sink.checked] at closed
  cases right : check.isRight with
  | true =>
    rw [right] at closed
    cases inner : factory.sink.close (own, s) with
    | mk result rest =>
      rw [inner] at closed
      cases closed
      exact ⟨rfl, rfl⟩
  | false =>
    rw [right] at closed
    cases closed

/-- What was written to a checked sink was written to the sink, and its check has taken it. -/
lemma Begun.of_checked {slot : Slot} {pieces : List Bytes} {own : DigestCheck × κ} {s s' : σ}
    (begun : factory.checked.Begun slot pieces s own s') :
    factory.Begun slot pieces s own.2 s' ∧ Checks slot pieces.flatten own.1 := by
  induction begun with
  | make made =>
    obtain ⟨start, made'⟩ := of_make_checked made
    refine ⟨.make made', ?_⟩
    rw [start]
    exact checks_start _
  | @write pieces b s own s' own' s'' _ written ih =>
    obtain ⟨check, inner⟩ := own
    obtain ⟨begun, checks⟩ := ih
    rw [write_checked] at written
    cases inner : factory.sink.write b (inner, s') with
    | mk result rest =>
      rw [inner] at written
      cases written
      rw [List.flatten_append, List.flatten_singleton]
      exact ⟨.write begun inner, checks.update b⟩

/-- A slot accepts the payload of which it names the digest. -/
lemma Reliable.accepts_checked (reliable : factory.Reliable) {slot : Slot} {content : Bytes}
    (named : slot.Names content) : factory.checked.Accepts slot content where
  make s := by
    obtain ⟨own, s', made⟩ := reliable.make slot s
    exact ⟨_, s', make_checked made⟩
  write {pieces b s own s'} _ _ := by
    obtain ⟨own', s'', written⟩ := reliable.write b own.2 s'
    refine ⟨(own.1.update b, own'), s'', ?_⟩
    rw [write_checked, written]
  close {pieces s own s'} begun whole := by
    obtain ⟨_, checks⟩ := begun.of_checked
    obtain ⟨own', s'', closed⟩ := reliable.close own.2 s'
    exact ⟨_, s'', close_checked (checks.isRight_iff.mpr (whole ▸ named)) closed⟩

/-- A payload that was delivered through the check is one of which the slot names the digest. -/
lemma Delivered.of_checked {slot : Slot} {pieces : List Bytes} {s s' : σ}
    (delivered : factory.checked.Delivered slot pieces s s') :
    factory.Delivered slot pieces s s' ∧ slot.Names pieces.flatten := by
  obtain ⟨own, s₁, own', begun, closed⟩ := delivered
  obtain ⟨begun', checks⟩ := begun.of_checked
  obtain ⟨right, closed'⟩ := of_close_checked closed
  exact ⟨⟨own.2, s₁, own'.2, begun', closed'⟩, checks.isRight_iff.mp right⟩

/-- What was delivered to checked sinks was delivered to the sinks. -/
lemma Delivers.of_checked {parts : List (Slot × Bytes)} {s s' : σ}
    (delivers : factory.checked.Delivers parts s s') : factory.Delivers parts s s' := by
  induction delivers with
  | nil => exact .nil
  | cons delivered _ ih => exact .cons delivered.of_checked.1 ih

end SinkFactory

end SealedMail
