import SealedMail.Proofs.Store.Keeping

/-!
# Links between tables

In every store drafts are in conversations that are there, and so are messages, whose senders have
their pictures there too (`Step.linked`, `Reachable.linked`). Nothing of this depends on the order
of requests.
-/

namespace SealedMail

/-! ## Tables -/

namespace Table

variable {κ α β : Type} [DecidableEq κ]

/-- Every key of a table has a row in the other one. -/
def Within (table : Table κ α) (other : Table κ β) : Prop :=
  ∀ n row, table.get? n = some row → ∃ found, other.get? n = some found

variable {table : Table κ α} {other later : Table κ β}

lemma within_empty (other : Table κ β) : (empty : Table κ α).Within other := nofun

/-- A row may come under a key that the other table has. -/
lemma Within.put (within : table.Within other) {n : κ} {found : β}
    (there : other.get? n = some found) (row : α) : (table.put n row).Within other := by
  intro m row' h
  rcases of_get?_put h with ⟨rfl, _⟩ | ⟨_, before⟩
  · exact ⟨found, there⟩
  · exact within m row' before

/-- Without a row a table refers to no more than before. -/
lemma Within.erase (within : table.Within other) (n : κ) : (table.erase n).Within other := by
  intro m row h
  exact within m row (get?_of_erase h)

/-- A table refers to rows for as long as these are not lost. -/
lemma Within.of_grows (within : table.Within other) (grows : other.Grows later) :
    table.Within later := by
  intro n row h
  obtain ⟨found, there⟩ := within n row h
  exact ⟨found, grows n found there⟩

end Table

namespace Store

/-! ## Rows -/

/-- The store has the conversation of a message and the picture of its sender. -/
structure Backs (store : Store) (row : MessageRow) : Prop where
  conversation : ∃ found, store.conversations.get? row.message.conversation = some found
  sender : store.Shows row.sender (store.sender row.sender)

variable {store store' : Store} {request : Request} {row : MessageRow}

/-- What a row refers to stays in a step, and so does its sender. -/
lemma Backs.of_step (backs : store.Backs row) (step : Step store request store') :
    store'.Backs row ∧ store'.sender row.sender = store.sender row.sender := by
  obtain ⟨⟨found, there⟩, sender⟩ := backs
  have sender' := sender.of_grows step.avatars_grow
  exact ⟨⟨⟨found, step.conversations_grow _ _ there⟩, ⟨rfl, sender'.picture⟩⟩, sender'.sender⟩

/-- What a message is kept with is there. -/
lemma backs_keepMessage {message : StoredMessage} {conversation : Conversation}
    (there : store.conversations.get? message.conversation = some conversation) (sender : Sender)
    (received : Option MessageRecord) (attachments : List Attachment) :
    (store.keepMessage message sender received attachments).Backs
      ⟨message, senderRow sender, received⟩ := by
  rw [keepMessage_eq]
  exact ⟨⟨conversation, there⟩, ⟨rfl, (shows_senderRow store sender rfl).picture⟩⟩

/-! ## The invariant -/

/-- Drafts and messages refer to what is there. -/
structure Linked (store : Store) : Prop where
  drafts : store.drafts.Within store.conversations
  messages : ∀ n row, store.messages.get? n = some row → store.Backs row

/-- In an empty store nothing refers to anything. -/
lemma linked_empty : empty.Linked := by
  refine ⟨Table.within_empty _, fun n row h => ?_⟩
  cases h

/-- No step leaves a reference without what it refers to. -/
theorem Step.linked (step : Step store request store') (linked : store.Linked) : store'.Linked := by
  have drafts := linked.drafts.of_grows step.conversations_grow
  have messages n row (h : store.messages.get? n = some row) : store'.Backs row :=
    ((linked.messages n row h).of_step step).1
  cases step with
  | saveDraft there => exact ⟨linked.drafts.put there _, messages⟩
  | @commitDraft conversation address dateSent draft id saved next =>
    obtain ⟨found, there⟩ := linked.drafts _ _ saved
    refine ⟨?_, fun n row h => ?_⟩
    · rw [keepMessage_eq]
      exact linked.drafts.erase _
    · rw [keepMessage_eq] at h
      rcases Table.of_get?_put h with ⟨_, rfl⟩ | ⟨_, before⟩
      · exact backs_keepMessage there _ _ _
      · exact messages n row before
  | loseDraft => exact ⟨linked.drafts.erase _, messages⟩
  | @saveMessage message conversation =>
    refine ⟨?_, fun n row h => ?_⟩
    · rw [Store.saveMessage, keepMessage_eq] at drafts ⊢
      exact drafts
    · rw [Store.saveMessage, keepMessage_eq] at h
      rcases Table.of_get?_put h with ⟨_, rfl⟩ | ⟨_, before⟩
      · exact backs_keepMessage ((Table.get?_putNew _ _ _ _).trans (if_pos rfl)) _ _ _
      · exact messages n row before
  | @setFlags id read done message sender record marked =>
    refine ⟨drafts, fun n row h => ?_⟩
    rcases Table.of_get?_put h with ⟨_, rfl⟩ | ⟨_, before⟩
    · obtain ⟨conversation, sender⟩ := messages id _ marked
      exact ⟨conversation, sender⟩
    · exact messages n row before
  | _ => exact ⟨drafts, messages⟩

/-- In every store that can come up all references lead somewhere. -/
theorem Reachable.linked (reachable : store.Reachable) : store.Linked := by
  induction reachable with
  | empty => exact linked_empty
  | after request _ ih => exact (step_after _ request).linked ih

end Store

end SealedMail
