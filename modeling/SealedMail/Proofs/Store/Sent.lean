import SealedMail.Proofs.Encoding
import SealedMail.Proofs.Store.Keeping

/-!
# Sent messages

A draft that was committed is encoded once more from the rows that it went into. Everything in them
is as it was in the draft, but the picture of the sender is the one that the store has under its
number (`encodeStored_of_commitDraft`). That is the picture of the draft, if no other picture came
with the same image: `draft_encoded_again`. The number is made of the image alone, so that an image
that was there before keeps the type that it had (`draft_encoded_with_former_type`).
-/

namespace SealedMail.Store

variable {store store' : Store} {conversation id : UInt64} {draft : Draft} {address : Address}
  {dateSent : DateTime}

/-- A draft that was committed is encoded with the picture that the store has. -/
theorem encodeStored_of_commitDraft (reachable : store.Reachable)
    (saved : store.draft conversation = some draft)
    (committed : store.commitDraft conversation address dateSent = .ok (id, store')) :
    store'.archive.encodeStored id =
      store.archive.encodeDraft address
        { draft with senderAvatar := draft.senderAvatar.map store.keptAvatar } dateSent := by
  have holds := holds_of_commitDraft saved committed
  have same : store'.archive.conversation = store.archive.conversation := by
    obtain ⟨draft', _, _, rfl⟩ := of_commitDraft committed
    rw [keepMessage_eq]
    rfl
  have its : draft.conversation = conversation := reachable.consistent.drafts _ _ saved
  rw [holds.encodeStored, Archive.encode_congr (congrFun same _), Archive.encodeDraft, its]
  rfl

/-- A draft that was committed is encoded to what it was encoded to before, whatever else the store
has seen. Let no picture in the store have the number of the picture of the draft and another image,
or the same image and another type. -/
theorem draft_encoded_again (reachable : store.Reachable)
    (saved : store.draft conversation = some draft)
    (committed : store.commitDraft conversation address dateSent = .ok (id, store'))
    (distinct : ∀ avatar ∈ draft.senderAvatar, ∀ n kept, store.avatars.get? n = some kept →
      avatarId kept = avatarId avatar → kept.data = avatar.data)
    (typed : ∀ avatar ∈ draft.senderAvatar, ∀ n kept, store.avatars.get? n = some kept →
      kept.data = avatar.data → kept.mimeType = avatar.mimeType) :
    store'.archive.encodeStored id = store.archive.encodeDraft address draft dateSent := by
  rw [encodeStored_of_commitDraft reachable saved committed]
  obtain ⟨_, _, _, avatar, _, _⟩ := draft
  cases avatar with
  | none => rfl
  | some avatar =>
    rw [Option.map_some,
      keptAvatar_eq reachable.consistent (distinct avatar rfl) (typed avatar rfl)]

/-- In a store with one picture this is the one that is found. -/
lemma eq_of_get?_withAvatar {n : Int} {avatar kept : Avatar}
    (found : (withAvatar .empty (some avatar)).get? n = some kept) : kept = avatar := by
  rw [withAvatar, Table.get?_putNew] at found
  split at found
  next =>
    cases found
    rfl
  next => cases found

/-- A draft with a picture is sent twice. -/
theorem draft_encoded_again_twice :
    let ann : Address := ⟨"ann", "example.org", by decide, by decide⟩
    let bob : Address := ⟨"bob", "example.org", by decide, by decide⟩
    let date : DateTime := ⟨⟨2024, 2, 29, 12, 30, 0, 0, 60⟩, by decide⟩
    let draft : Draft := ⟨1, "Ann", "", some ⟨"image/png", [1, 2]⟩, "Hello", "Bye"⟩
    let requests := [.createConversation (.ofList [bob]), .saveDraft draft, .commitDraft 1 ann date,
      .saveDraft draft]
    let store := Store.empty.afterAll requests
    ∃ encoded store', store.archive.encodeDraft ann draft date = .ok encoded ∧
      store.commitDraft 1 ann date = .ok (2, store') ∧
      store'.archive.encodeStored 2 = .ok encoded := by
  intro ann bob date draft requests store
  have saved : store.draft 1 = some draft := rfl
  have found : store.archive.conversation draft.conversation = some ⟨1, .ofList [bob]⟩ := rfl
  obtain ⟨encoded, written⟩ := Archive.exists_encodeDraft ann date found (List.forall_mem_nil _)
  have next : store.messages.nextId? = some 2 := rfl
  obtain ⟨store', committed⟩ := exists_commitDraft saved next ann date
  have avatars : store.avatars = withAvatar .empty draft.senderAvatar := rfl
  have only : ∀ n kept, store.avatars.get? n = some kept → kept = ⟨"image/png", [1, 2]⟩ := by
    intro n kept found
    rw [avatars] at found
    exact eq_of_get?_withAvatar found
  refine ⟨encoded, store', written, committed,
    (draft_encoded_again (.afterAll .empty requests) saved committed ?_ ?_).trans written⟩
  · rintro _ ⟨⟩ n kept found _
    rw [only n kept found]
  · rintro _ ⟨⟩ n kept found _
    rw [only n kept found]

/-- The same image with another type is encoded with the type that it had first. Ann sends a picture
as a PNG image, and then the same bytes as a JPEG image: the second message goes out with the latter
type, and when it is encoded once more it has the former. -/
theorem draft_encoded_with_former_type :
    let ann : Address := ⟨"ann", "example.org", by decide, by decide⟩
    let bob : Address := ⟨"bob", "example.org", by decide, by decide⟩
    let date : DateTime := ⟨⟨2024, 2, 29, 12, 30, 0, 0, 60⟩, by decide⟩
    let draft (mimeType : String) : Draft := ⟨1, "Ann", "", some ⟨mimeType, [1, 2]⟩, "Hello", "Bye"⟩
    let body (mimeType : String) : Body :=
      ⟨⟨ann, "Ann", "", some ⟨mimeType, [1, 2]⟩⟩, .ofList [bob], date, "Hello", "Bye", []⟩
    let store := Store.empty.afterAll [.createConversation (.ofList [bob]),
      .saveDraft (draft "image/png"), .commitDraft 1 ann date, .saveDraft (draft "image/jpeg")]
    (∀ n kept, store.avatars.get? n = some kept → kept.data = [1, 2]) ∧
    store.draft 1 = some (draft "image/jpeg") ∧
    store.archive.encodeDraft ann (draft "image/jpeg") date =
      .ok ⟨(body "image/jpeg").toBytes, []⟩ ∧
    ∃ store', store.commitDraft 1 ann date = .ok (2, store') ∧
      store'.archive.encodeStored 2 = .ok ⟨(body "image/png").toBytes, []⟩ ∧
      (body "image/png").toBytes ≠ (body "image/jpeg").toBytes := by
  intro ann bob date draft body store
  have saved : store.draft 1 = some (draft "image/jpeg") := rfl
  have reachable : store.Reachable := .afterAll .empty _
  have avatars : store.avatars = withAvatar .empty (draft "image/png").senderAvatar := rfl
  have found : store.archive.conversation 1 = some ⟨1, .ofList [bob]⟩ := rfl
  have written (mimeType : String) : store.archive.encodeDraft ann (draft mimeType) date =
      .ok ⟨(body mimeType).toBytes, []⟩ :=
    Archive.encode_eq_ok.mpr ⟨_, found, List.forall_mem_nil _, rfl⟩
  have kept : store.keptAvatar ⟨"image/jpeg", [1, 2]⟩ = ⟨"image/png", [1, 2]⟩ := by
    have same : avatarId ⟨"image/jpeg", [1, 2]⟩ = avatarId ⟨"image/png", [1, 2]⟩ := rfl
    rw [keptAvatar, avatars, withAvatar, Table.get?_putNew, if_pos same, Table.get?_empty]
    rfl
  have next : store.messages.nextId? = some 2 := rfl
  obtain ⟨store', committed⟩ := exists_commitDraft saved next ann date
  refine ⟨?_, saved, written _, store', committed, ?_, ?_⟩
  · intro n picture stored
    rw [avatars] at stored
    rw [eq_of_get?_withAvatar stored]
  · rw [← written]
    refine (encodeStored_of_commitDraft reachable saved committed).trans ?_
    rw [Option.map_some, kept]
  · intro same
    have readable : (body "image/png").IsReadable :=
      ⟨by decide, ⟨bob, .head _⟩, by decide, List.forall_mem_nil _, by decide⟩
    have avatar := congrArg (fun received => received.sender.avatar)
      (ReceivedBody.receivedBy_eq readable same bob)
    exact absurd avatar (by decide)

end SealedMail.Store
