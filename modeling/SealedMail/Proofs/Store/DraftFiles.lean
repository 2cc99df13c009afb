import SealedMail.Proofs.Store.Conversations
import SealedMail.Proofs.Store.Links

/-!
# Payloads of drafts

A payload that is in a draft was added to it by a request (`exists_addDraftAttachment`). If all
payloads are added to conversations that are there (`Store.PlacedAll`), a conversation that is
created has none yet, and a message that is sent takes with it only what was added after its
conversation was there (`files_added_to_conversation`). A store does not ask for this: numbers of
conversations that are yet to come can be told in advance, and what is added under such a number
goes out with the first message there (`file_added_before_conversation`).
-/

namespace SealedMail.Store

/-! ## Where payloads may be added -/

/-- The request adds no payload to a conversation that is not there. -/
def Request.IsPlaced (store : Store) : Request → Prop
  | .addDraftAttachment conversation _ _ _ _ =>
    ∃ found, store.conversations.get? conversation = some found
  | _ => True

/-- No request that comes adds a payload to a conversation that is not there at that time. -/
def PlacedAll (store : Store) : List Request → Prop
  | [] => True
  | request :: rest => request.IsPlaced store ∧ (store.after request).PlacedAll rest

variable {store store' : Store} {request : Request} {requests : List Request}
  {conversation : Conversation} {attachment : Attachment}

/-- Requests that come later are placed as well. -/
lemma PlacedAll.of_append {later : List Request} (placed : store.PlacedAll (requests ++ later)) :
    (store.afterAll requests).PlacedAll later := by
  induction requests generalizing store with
  | nil => exact placed
  | cons request rest ih => exact ih placed.2

/-! ## Payloads in conversations that are there -/

/-- A payload that is put into a draft keeps the payloads in conversations that are there. -/
lemma Step.draftAttachments_within (step : Step store request store')
    (placed : request.IsPlaced store)
    (within : store.draftAttachments.Within store.conversations) :
    store'.draftAttachments.Within store'.conversations := by
  have within' := within.of_grows step.conversations_grow
  cases step with
  | addDraftAttachment =>
    obtain ⟨found, there⟩ := placed
    exact within.put there _
  | commitDraft =>
    rw [keepMessage_eq] at within' ⊢
    exact within.erase _
  | loseDraft => exact within.erase _
  | saveMessage =>
    rw [Store.saveMessage, keepMessage_eq] at within' ⊢
    exact within'
  | _ => exact within'

/-- Files of drafts belong to conversations, if each was added to one. -/
lemma PlacedAll.draftAttachments_within (placed : store.PlacedAll requests)
    (within : store.draftAttachments.Within store.conversations) :
    (store.afterAll requests).draftAttachments.Within (store.afterAll requests).conversations := by
  induction requests generalizing store with
  | nil => exact within
  | cons request rest ih =>
    exact ih placed.2 ((step_after store request).draftAttachments_within placed.1 within)

/-- A number without a conversation has no files. -/
lemma draftAttachmentList_of_free (within : store.draftAttachments.Within store.conversations)
    {n : UInt64} (free : store.conversations.get? n = none) : store.draftAttachmentList n = [] := by
  rw [draftAttachmentList]
  cases found : store.draftAttachments.get? n with
  | none => rfl
  | some list =>
    obtain ⟨conversation, there⟩ := within n list found
    rw [free] at there
    cases there

/-! ## Where payloads come from -/

/-- The request adds the payload to the draft of the conversation. -/
def Request.Adds (n : UInt64) (attachment : Attachment) (request : Request) : Prop :=
  ∃ position filename mimeType note,
    request = .addDraftAttachment n filename mimeType note attachment.content ∧
      attachment.info = describe position filename mimeType note attachment.content

/-- A payload that is in a draft after another one was taken out was in it before. -/
lemma mem_of_takeDraft {conversation n : UInt64}
    (mem : attachment ∈ (store.takeDraft conversation).draftAttachmentList n) :
    attachment ∈ store.draftAttachmentList n := by
  rw [draftAttachmentList, takeDraft, Table.get?_erase] at mem
  split at mem
  next => exact absurd mem List.not_mem_nil
  next => exact mem

/-- A draft that was taken out leaves no payloads. -/
lemma draftAttachmentList_takeDraft (store : Store) (conversation : UInt64) :
    (store.takeDraft conversation).draftAttachmentList conversation = [] := by
  rw [draftAttachmentList, takeDraft, Table.get?_erase, if_pos rfl]
  rfl

/-- A payload in a draft was there before a request, or the request adds it. -/
lemma Step.mem_draftAttachmentList (step : Step store request store') {n : UInt64}
    (mem : attachment ∈ store'.draftAttachmentList n) :
    attachment ∈ store.draftAttachmentList n ∨ request.Adds n attachment := by
  cases step with
  | @addDraftAttachment conversation filename mimeType note content list short same =>
    rw [draftAttachmentList, Table.get?_put] at mem
    split at mem
    next here =>
      subst here
      rcases List.mem_append.mp mem with before | added
      · rw [same] at before
        exact .inl before
      · obtain rfl := List.mem_singleton.mp added
        exact .inr ⟨_, filename, mimeType, note, rfl, rfl⟩
    next => exact .inl mem
  | commitDraft =>
    rw [keepMessage_eq] at mem
    exact .inl (mem_of_takeDraft mem)
  | loseDraft => exact .inl (mem_of_takeDraft mem)
  | saveMessage =>
    rw [Store.saveMessage, keepMessage_eq] at mem
    exact .inl mem
  | _ => exact .inl mem

/-- A payload in a draft was there before some requests, or one of them adds it. -/
theorem exists_addDraftAttachment {n : UInt64}
    (mem : attachment ∈ (store.afterAll requests).draftAttachmentList n) :
    attachment ∈ store.draftAttachmentList n ∨
      ∃ before request rest, requests = before ++ request :: rest ∧ request.Adds n attachment := by
  induction requests generalizing store with
  | nil => exact .inl mem
  | cons request rest ih =>
    rcases ih mem with before | ⟨before, added, later, rfl, adds⟩
    · refine ((step_after store request).mem_draftAttachmentList before).imp_right fun adds => ?_
      exact ⟨[], request, rest, rfl, adds⟩
    · exact .inr ⟨request :: before, added, later, rfl, adds⟩

/-! ## Conversations and what is sent in them -/

/-- One of the requests added the payload to the draft of the conversation, which was there. -/
def AddedTo (store : Store) (requests : List Request) (conversation : Conversation)
    (attachment : Attachment) : Prop :=
  ∃ before request rest, requests = before ++ request :: rest ∧
    request.Adds conversation.id attachment ∧
    (store.afterAll before).conversations.get? conversation.id = some conversation

/-- A conversation is created, because this is asked for or because a message needs one. -/
inductive Creates (store : Store) (participants : AddressSet) : Conversation → Store → Prop where
  | asked {created later} :
    store.createConversation participants = some (created, later) →
    Creates store participants created later
  | needed {created later} :
    store.findConversation participants = none →
    store.conversationOf participants = some (created, later) →
    Creates store participants created later

/-- Every conversation that comes up comes up by creation. -/
lemma Creates.eq_createConversation {participants : AddressSet}
    (creates : store.Creates participants conversation store') :
    store.createConversation participants = some (conversation, store') := by
  cases creates with
  | asked created => exact created
  | needed missing created =>
    rw [conversationOf, missing] at created
    exact created

/-- A conversation that is created has no payloads, if all are in conversations that are there. -/
lemma Creates.draftAttachmentList_eq_nil {participants : AddressSet}
    (creates : store.Creates participants conversation store')
    (within : store.draftAttachments.Within store.conversations) :
    store'.draftAttachmentList conversation.id = [] := by
  obtain ⟨id, next, rfl, rfl⟩ := createConversation_eq_some.mp creates.eq_createConversation
  exact draftAttachmentList_of_free within (Table.get?_of_nextId? next)

/-- The attachments of a message that is sent were in the draft. -/
lemma attachments_of_commitDraft {n id : UInt64} {address : Address} {dateSent : DateTime}
    (committed : store.commitDraft n address dateSent = .ok (id, store')) :
    store'.archive.attachments id = store.draftAttachmentList n := by
  obtain ⟨draft, saved, _, _⟩ := of_commitDraft committed
  exact (holds_of_commitDraft saved committed).archive.2.2

/-- A payload in the draft of a conversation was added to it when it was there. -/
lemma PlacedAll.addedTo (placed : empty.PlacedAll requests)
    (there : (empty.afterAll requests).conversations.get? conversation.id = some conversation)
    (mem : attachment ∈ (empty.afterAll requests).draftAttachmentList conversation.id) :
    empty.AddedTo requests conversation attachment := by
  rcases exists_addDraftAttachment mem with before | ⟨before, request, rest, rfl, adds⟩
  · exact absurd before List.not_mem_nil
  · refine ⟨before, request, rest, rfl, adds, ?_⟩
    obtain ⟨position, filename, mimeType, note, rfl, _⟩ := adds
    obtain ⟨found, there'⟩ := placed.of_append.1
    -- what was there then is what is there in the end
    rw [afterAll_append] at there
    have later := (conversations_grow_afterAll _ _ _ _ there').symm.trans there
    rw [there', later]

/-- Payloads stay in the conversation that they are added to. If they are only added to
conversations that are there, then however a store came to be, a conversation that is created, or is
made for a message, has no payloads in its draft. So what is sent in a conversation was added to its
draft, by a request that came when the conversation was there. A draft for which there is no number
is lost with its payloads: they are in no message, and no longer in a draft of the conversation. -/
theorem files_added_to_conversation (placed : empty.PlacedAll requests) :
    (∀ {participants conversation store'},
      (empty.afterAll requests).Creates participants conversation store' →
      store'.draftAttachmentList conversation.id = []) ∧
    (∀ {n address dateSent id store'},
      (empty.afterAll requests).commitDraft n address dateSent = .ok (id, store') →
      ∃ conversation, conversation.id = n ∧
        (empty.afterAll requests).conversations.get? n = some conversation ∧
        ∀ attachment ∈ store'.archive.attachments id,
          empty.AddedTo requests conversation attachment) ∧
    ∀ {n address dateSent left},
      (empty.afterAll requests).commitDraft n address dateSent = .error (.outOfNumbers left) →
      left.draftAttachmentList n = [] ∧
        left.attachments = (empty.afterAll requests).attachments := by
  have reachable := Reachable.empty.afterAll requests
  refine ⟨fun creates => ?_, fun {n address dateSent id store'} committed => ?_,
    fun {n _ _ _} stopped => ?_⟩
  · have within := placed.draftAttachments_within (Table.within_empty _)
    exact creates.draftAttachmentList_eq_nil within
  · obtain ⟨draft, saved, _, _⟩ := of_commitDraft committed
    obtain ⟨conversation, there⟩ := reachable.linked.drafts n draft saved
    obtain rfl := reachable.consistent.conversations n conversation there
    refine ⟨conversation, rfl, there, fun attachment mem => ?_⟩
    rw [attachments_of_commitDraft committed] at mem
    exact placed.addedTo there mem
  · obtain ⟨_, _, rfl⟩ := commitDraft_eq_outOfNumbers.mp stopped
    exact ⟨draftAttachmentList_takeDraft _ n, rfl⟩

/-- Ann adds a file to what she writes to Bob. A conversation with Carol that is created then has
none, and the file goes out to Bob. -/
theorem files_added_to_conversation_of_two :
    let ann : Address := ⟨"ann", "example.org", by decide, by decide⟩
    let bob : Address := ⟨"bob", "example.org", by decide, by decide⟩
    let carol : Address := ⟨"carol", "example.org", by decide, by decide⟩
    let date : DateTime := ⟨⟨2024, 2, 29, 12, 30, 0, 0, 60⟩, by decide⟩
    let requests : List Request := [.createConversation (.ofList [bob]),
      .saveDraft ⟨1, "Ann", "", none, "Hello", "Bye"⟩,
      .addDraftAttachment 1 "a.txt" "text/plain" "" [1, 2]]
    let file : Attachment := ⟨describe 0 "a.txt" "text/plain" "" [1, 2], [1, 2]⟩
    let store := empty.afterAll requests
    (∃ conversation store', store.Creates (.ofList [carol]) conversation store' ∧
      store'.draftAttachmentList conversation.id = []) ∧
    ∃ store', store.commitDraft 1 ann date = .ok (1, store') ∧
      store'.archive.attachments 1 = [file] ∧
      empty.AddedTo requests ⟨1, .ofList [bob]⟩ file := by
  intro ann bob carol date requests file store
  have placed : empty.PlacedAll requests := ⟨trivial, trivial, ⟨⟨1, .ofList [bob]⟩, rfl⟩, trivial⟩
  obtain ⟨created, sent, _⟩ := files_added_to_conversation placed
  have saved : store.draft 1 = some ⟨1, "Ann", "", none, "Hello", "Bye"⟩ := rfl
  have next : store.messages.nextId? = some 1 := rfl
  obtain ⟨store', committed⟩ := exists_commitDraft saved next ann date
  have attachments := attachments_of_commitDraft committed
  have creates : store.Creates (.ofList [carol]) _ _ := .asked rfl
  refine ⟨⟨_, _, creates, created creates⟩, store', committed, attachments, ?_⟩
  obtain ⟨conversation, _, there, added⟩ := sent committed
  cases there
  exact added file (attachments ▸ List.mem_singleton_self file)

/-- A file that is added under a number that no conversation has yet goes out in the conversation
that gets the number. Ann adds a file under the number 1. Then a conversation with Bob is created,
which gets this number, and the file is in its draft. It is sent to Bob with what Ann writes. -/
theorem file_added_before_conversation :
    let ann : Address := ⟨"ann", "example.org", by decide, by decide⟩
    let bob : Address := ⟨"bob", "example.org", by decide, by decide⟩
    let date : DateTime := ⟨⟨2024, 2, 29, 12, 30, 0, 0, 60⟩, by decide⟩
    let file : Attachment := ⟨describe 0 "a.txt" "text/plain" "" [1, 2], [1, 2]⟩
    let store := empty.after (.addDraftAttachment 1 "a.txt" "text/plain" "" [1, 2])
    ∃ conversation store', store.Creates (.ofList [bob]) conversation store' ∧
      store'.draftAttachmentList conversation.id = [file] ∧
      ∃ sent,
        (store'.after (.saveDraft ⟨conversation.id, "Ann", "", none, "Hello", "Bye"⟩)).commitDraft
          conversation.id ann date = .ok (1, sent) ∧
        sent.archive.attachments 1 = [file] := by
  intro ann bob date file store
  let draft : Draft := ⟨1, "Ann", "", none, "Hello", "Bye"⟩
  let store' := store.after (.createConversation (.ofList [bob]))
  have created : store.createConversation (.ofList [bob]) = some (⟨1, .ofList [bob]⟩, store') := rfl
  have saved : (store'.after (.saveDraft draft)).draft 1 = some draft := rfl
  have next : (store'.after (.saveDraft draft)).messages.nextId? = some 1 := rfl
  obtain ⟨sent, committed⟩ := exists_commitDraft saved next ann date
  have attachments := attachments_of_commitDraft committed
  exact ⟨⟨1, .ofList [bob]⟩, store', .asked created, rfl, sent, committed, attachments⟩

end SealedMail.Store
