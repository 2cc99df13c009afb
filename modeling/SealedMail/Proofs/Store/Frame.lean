import SealedMail.Proofs.Encoding
import SealedMail.Proofs.Store.Links
import SealedMail.Proofs.Store.Writes

/-!
# What a request leaves alone

Messages share conversations and pictures, and every request works on the same tables. Still a
message is looked up and encoded as before after any request that does not name it
(`Store.SameMessage`, `Step.sameMessage`), since what a message refers to is there
(`Reachable.linked`) and is never replaced. So requests about other messages can be left out when
one message is looked at (`sameMessage_afterAll`).
-/

namespace SealedMail.Store

/-- The request does not name the message with this number: it does not put another one in its
place, mark it, or bring it a payload. -/
def Request.Ignores (id : UInt64) : Request → Prop
  | .setFlags marked _ _ => marked ≠ id
  | request => request.Spares id

/-- The message with this number is the same in both stores, whichever way it is looked at. -/
structure SameMessage (store later : Store) (id : UInt64) : Prop where
  message : later.archive.message id = store.archive.message id
  sender : later.archive.sender id = store.archive.sender id
  attachments : later.archive.attachments id = store.archive.attachments id
  record : later.messageRecord id = store.messageRecord id
  encoded : later.archive.encodeStored id = store.archive.encodeStored id

variable {store store' : Store} {request : Request} {requests : List Request} {id : UInt64}
  {message : StoredMessage}

/-- A request that ignores a message leaves it in place. -/
lemma Request.Ignores.spares (ignores : request.Ignores id) : request.Spares id := by
  cases request with
  | setFlags => trivial
  | _ => exact ignores

/-- A request that does not name a message leaves its row and its attachments as they are. -/
lemma Step.row_eq {row : MessageRow} (step : Step store request store')
    (ignores : request.Ignores id) (found : store.messages.get? id = some row) :
    store'.messages.get? id = some row ∧
      store'.attachments.get? id = store.attachments.get? id := by
  obtain ⟨attachments, same | ⟨read, done, received, rfl, _⟩⟩ := step.row_cases ignores.spares found
  · exact ⟨same, attachments⟩
  · exact absurd rfl ignores

/-- A message stays the same under a request that does not name it. -/
theorem Step.sameMessage (step : Step store request store') (linked : store.Linked)
    (ignores : request.Ignores id) (stored : store.archive.message id = some message) :
    store.SameMessage store' id := by
  obtain ⟨row, found, rfl⟩ := Option.map_eq_some_iff.mp stored
  obtain ⟨found', attachments'⟩ := step.row_eq ignores found
  obtain ⟨⟨conversation, there⟩, _⟩ := linked.messages id row found
  have there' := step.conversations_grow _ _ there
  have shown := ((linked.messages id row found).of_step step).2
  have message : store'.archive.message id = store.archive.message id := by
    rw [archive_message, archive_message, found, found']
  have sender : store'.archive.sender id = store.archive.sender id := by
    rw [archive_sender, archive_sender, found, found', Option.map_some, Option.map_some, shown]
  have attachments : store'.archive.attachments id = store.archive.attachments id := by
    rw [archive_attachments, archive_attachments, attachments']
  refine ⟨message, sender, attachments, ?_, ?_⟩
  · rw [messageRecord, messageRecord, found, found']
  · refine Archive.encodeStored_congr message sender attachments fun looked same => ?_
    rw [stored] at same
    cases same
    exact there'.trans there.symm

/-- A message stays the same under requests that do not name it. -/
theorem sameMessage_afterAll (reachable : store.Reachable)
    (ignore : ∀ request ∈ requests, request.Ignores id)
    (stored : store.archive.message id = some message) :
    store.SameMessage (store.afterAll requests) id := by
  induction requests generalizing store with
  | nil => exact ⟨rfl, rfl, rfl, rfl, rfl⟩
  | cons request rest ih =>
    obtain ⟨first, later⟩ := List.forall_mem_cons.mp ignore
    have same := (step_after store request).sameMessage reachable.linked first stored
    have rest := ih (reachable.after request) later (same.message.trans stored)
    exact ⟨rest.message.trans same.message, rest.sender.trans same.sender,
      rest.attachments.trans same.attachments, rest.record.trans same.record,
      rest.encoded.trans same.encoded⟩

/-- Requests touch only what they name. In every store, a request that is carried out gives what the
operation gives. It leaves each message that it does not name the same, with its sender, its
attachments, its record and what it is encoded to. If it is refused, it leaves the whole store as it
was. It stops without an answer exactly if it needs the number after the last one, and then only the
draft that was to be sent is missing. -/
theorem request_touches_only_its_message (reachable : store.Reachable) (request : Request) :
    request.perform store = store.outcome request ∧
      (∀ {id message}, store.archive.message id = some message → request.Ignores id →
        store.SameMessage (request.perform store).2 id) ∧
      (∀ {refusal store'}, request.perform store = (.error (.refused refusal), store') →
        store' = store) ∧
      ∀ {store'}, request.perform store = (.error .outOfNumbers, store') ↔
        request.Exceeds store ∧ store' = store.leftBy request := by
  refine ⟨request.perform_eq store, fun stored ignores => ?_, Request.store_eq_of_refused,
    Request.outOfNumbers_iff⟩
  rw [← request.after_eq]
  exact (step_after store request).sameMessage reachable.linked ignores stored

/-- Ann has sent a message with a file, and writes another one. A message from Bob comes in, in the
same conversation, with the last number of all: what Ann sent is the same as before. To mark her
message as read is refused, since it was not received, and the store is as it was. To send what she
has written stops, for there is no number for it: the draft is gone, and what she sent is the same. -/
theorem request_touches_only_its_message_received :
    let ann : Address := ⟨"ann", "example.org", by decide, by decide⟩
    let bob : Address := ⟨"bob", "example.org", by decide, by decide⟩
    let date : DateTime := ⟨⟨2024, 2, 29, 12, 30, 0, 0, 60⟩, by decide⟩
    let smile : Avatar := ⟨"image/png", [1, 2, 3]⟩
    let draft : Draft := ⟨1, "Ann", "", some smile, "Hello", "Bye"⟩
    let received : DecodedMessage := ⟨
      ⟨18446744073709551615, 0, date, date, bob, "Hi", "", ⟨List.replicate 32 0⟩, 1, false, false,
        4⟩,
      ⟨bob, "Bob", "", some smile⟩, .ofList [bob], [], []⟩
    let store := empty.afterAll [.createConversation (.ofList [bob]), .saveDraft draft,
      .addDraftAttachment 1 "a.txt" "text/plain" "" [1, 2], .commitDraft 1 ann date,
      .saveDraft draft]
    let saving : Request := .saveMessage received ⟨1, .ofList [bob]⟩
    let marking : Request := .setFlags 1 true false
    let sending : Request := .commitDraft 1 ann date
    ∃ full, full = (saving.perform store).2 ∧
      store.archive.message 1 = some ⟨1, 1, date, "Hello", "Bye"⟩ ∧ store.SameMessage full 1 ∧
      (∃ store', marking.perform store =
          (.error (.refused (.store (.notFound (.receivedMessage 1)))), store') ∧ store' = store) ∧
      full.draft 1 = some draft ∧
      sending.perform full = (.error .outOfNumbers, full.takeDraft 1) ∧
      full.SameMessage (sending.perform full).2 1 := by
  intro ann bob date smile draft received store saving marking sending
  have reachable : store.Reachable := Reachable.empty.afterAll _
  have reachable' : (store.after saving).Reachable := reachable.after saving
  have stored : store.archive.message 1 = some ⟨1, 1, date, "Hello", "Bye"⟩ := rfl
  have ignores : saving.Ignores 1 := show (18446744073709551615 : UInt64) ≠ 1 by decide
  have refused : marking.perform store =
      (.error (.refused (.store (.notFound (.receivedMessage 1)))), store) := rfl
  have written : (store.after saving).draft 1 = some draft := rfl
  have exceeds : sending.Exceeds (store.after saving) :=
    ⟨⟨draft, written⟩, 18446744073709551615, _, rfl, rfl⟩
  obtain ⟨_, same, _⟩ := request_touches_only_its_message reachable saving
  obtain ⟨_, _, unchanged, _⟩ := request_touches_only_its_message reachable marking
  obtain ⟨_, same', _, stops⟩ := request_touches_only_its_message reachable' sending
  have kept := same stored ignores
  rw [← saving.after_eq] at kept
  have stored' := kept.message.trans stored
  exact ⟨_, saving.after_eq store, stored, kept, ⟨store, refused, unchanged refused⟩, written,
    stops.mpr ⟨exceeds, rfl⟩, same' stored' trivial⟩

end SealedMail.Store
