import Mathlib.Logic.Relation
import SealedMail.Proofs.Store.History

/-!
# Conversations

A message gets the conversation of exactly those who take part in it: the first one in the order
of numbers (`Store.IsFirst`), which is made with a new number if there is none. What is first stays
first (`Store.IsFirst.after`), as long as no message is saved in a conversation from elsewhere,
whose number could be smaller (`Request.IsLocal`).

An inbox is a store with a record of the messages that were given their conversations in it. Two
lemmas say what one step keeps (`Inbox.Sound.step`, `Inbox.Alone.step`). So in every inbox messages
are in the same conversation exactly if the same accounts take part in them
(`Inbox.conversations_unique`).
-/

namespace SealedMail

/-! ## Tables in order -/

namespace Table

variable {α : Type}

/-- A row that is there already is left alone. -/
lemma putNew_of_get? {κ : Type} [DecidableEq κ] {table : Table κ α} {key : κ} {known : α}
    (h : table.get? key = some known) (row : α) : table.putNew key row = table := by
  rw [putNew, h]
  rfl

/-- Rows that are sorted by their numbers are in the order of the numbers. -/
lemma pairwise_mergeSort (rows : List (UInt64 × α)) :
    (rows.mergeSort fun a b => a.1 ≤ b.1).Pairwise fun a b => a.1 ≤ b.1 := by
  have transitive (a b c : UInt64 × α) (ab : decide (a.1 ≤ b.1) = true)
      (bc : decide (b.1 ≤ c.1) = true) : decide (a.1 ≤ c.1) = true :=
    decide_eq_true (UInt64.le_trans (of_decide_eq_true ab) (of_decide_eq_true bc))
  have total (a b : UInt64 × α) : (decide (a.1 ≤ b.1) || decide (b.1 ≤ a.1)) = true := by
    simpa using UInt64.le_total a.1 b.1
  exact (List.pairwise_mergeSort transitive total rows).imp of_decide_eq_true

/-- What is found in the order of numbers has the smallest one. -/
lemma of_find?_inOrder {table : Table UInt64 α} {p : α → Bool} {row : α}
    (h : table.inOrder.find? p = some row) :
    ∃ n, table.get? n = some row ∧ p row = true ∧
      ∀ m other, table.get? m = some other → p other = true → n ≤ m := by
  rw [inOrder, List.find?_map, Option.map_eq_some_iff] at h
  obtain ⟨⟨n, row⟩, h, rfl⟩ := h
  obtain ⟨holds, before, after, split, none⟩ := List.find?_eq_some_iff_append.mp h
  have mem {m : UInt64} {other : α} :
      table.get? m = some other ↔ (m, other) ∈ before ++ (n, row) :: after := by
    rw [← split, List.mem_mergeSort, mem_rows]
  have sorted := pairwise_mergeSort table.rows
  rw [split] at sorted
  refine ⟨n, mem.mpr (by simp), holds, fun m other there same => ?_⟩
  rcases List.mem_append.mp (mem.mp there) with first | later
  · have refuted := none _ first
    rw [Function.comp_apply, same] at refuted
    cases refuted
  · rcases List.mem_cons.mp later with here | later
    · exact UInt64.le_of_eq (congrArg Prod.fst here).symm
    · exact (List.pairwise_cons.mp (List.pairwise_append.mp sorted).2.1).1 _ later

/-- The row that is found in the order of numbers is the one with the smallest number. -/
lemma find?_inOrder_eq_some {table : Table UInt64 α} {p : α → Bool} {row : α} :
    table.inOrder.find? p = some row ↔
      ∃ n, table.get? n = some row ∧ p row = true ∧
        ∀ m other, table.get? m = some other → p other = true → n ≤ m := by
  refine ⟨of_find?_inOrder, ?_⟩
  rintro ⟨n, there, holds, first⟩
  cases h : table.inOrder.find? p with
  | none =>
    have refuted := List.find?_eq_none.mp h row (mem_inOrder.mpr ⟨n, there⟩)
    exact absurd holds refuted
  | some found =>
    obtain ⟨m, there', holds', first'⟩ := of_find?_inOrder h
    obtain rfl := UInt64.le_antisymm (first m found there' holds') (first' n row there holds)
    rw [there] at there'
    exact there'.symm

end Table

namespace Store

/-! ## The first conversation of some accounts -/

/-- Of the conversations of exactly these accounts this one has the smallest number. -/
structure IsFirst (store : Store) (participants : AddressSet) (conversation : Conversation) :
    Prop where
  members : conversation.participants = participants
  found : store.conversations.get? conversation.id = some conversation
  least : ∀ n other, store.conversations.get? n = some other →
    other.participants = participants → conversation.id ≤ n

/-- Messages are only saved in conversations whose numbers the store knows. -/
def Request.IsLocal (store : Store) : Request → Prop
  | .saveMessage _ conversation =>
    ∃ known, store.conversations.get? conversation.id = some known
  | _ => True

variable {store store' : Store} {request : Request} {participants : AddressSet}
  {conversation : Conversation}

/-- The first conversation of some accounts is the one that a message of theirs gets. -/
lemma IsFirst.conversationOf_eq (first : store.IsFirst participants conversation) :
    store.conversationOf participants = some (conversation, store) := by
  have found : store.findConversation participants = some conversation := by
    refine Table.find?_inOrder_eq_some.mpr
      ⟨_, first.found, decide_eq_true first.members, fun n other there same => ?_⟩
    exact first.least n other there (of_decide_eq_true same)
  rw [conversationOf, found]

/-- A conversation that a message gets is the first one of those who take part. -/
lemma isFirst_of_conversationOf (consistent : store.Consistent)
    (h : store.conversationOf participants = some (conversation, store')) :
    store'.IsFirst participants conversation := by
  rw [conversationOf] at h
  cases found : store.findConversation participants with
  | some old =>
    rw [found] at h
    cases h
    obtain ⟨n, there, members, first⟩ := Table.find?_inOrder_eq_some.mp found
    obtain rfl := consistent.conversations n _ there
    refine ⟨of_decide_eq_true members, there, fun m other there' same => ?_⟩
    exact first m other there' (decide_eq_true same)
  | none =>
    rw [found] at h
    obtain ⟨id, _, rfl, rfl⟩ := createConversation_eq_some.mp h
    refine ⟨rfl, (Table.get?_put _ _ _ _).trans (if_pos rfl), fun n other there same => ?_⟩
    rcases Table.of_get?_put there with ⟨rfl, _⟩ | ⟨_, before⟩
    · exact UInt64.le_refl _
    · have refuted := List.find?_eq_none.mp found other (Table.mem_inOrder.mpr ⟨n, before⟩)
      exact absurd (decide_eq_true same) refuted

/-- To look for a conversation finds one and changes nothing, or creates one. -/
lemma of_conversationOf (h : store.conversationOf participants = some (conversation, store')) :
    store' = store ∨ store.createConversation participants = some (conversation, store') := by
  rw [conversationOf] at h
  split at h
  next =>
    cases h
    exact .inl rfl
  next => exact .inr h

/-- To ask for a new conversation is to create it. -/
lemma after_createConversation
    (created : store.createConversation participants = some (conversation, store')) :
    store.after (.createConversation participants) = store' := by
  rw [after, created]
  rfl

/-- A message gets a conversation if there is a number for a new one. -/
lemma exists_conversationOf {id : UInt64} (next : store.conversations.nextId? = some id)
    (participants : AddressSet) :
    ∃ conversation store', store.conversationOf participants = some (conversation, store') := by
  rw [conversationOf]
  split
  next => exact ⟨_, store, rfl⟩
  next => exact ⟨_, _, createConversation_eq_some.mpr ⟨id, next, rfl, rfl⟩⟩

/-- In an empty store a new conversation is the first one. -/
lemma conversationOf_empty (participants : AddressSet) :
    Store.empty.conversationOf participants = some (⟨1, participants⟩,
      { Store.empty with conversations := Table.empty.put 1 ⟨1, participants⟩ }) := by
  have none : Store.empty.findConversation participants = none := by
    rw [findConversation, conversationList, Table.inOrder]
    exact congrArg (List.find? _ <| List.map Prod.snd ·) List.mergeSort_nil
  rw [conversationOf, none]
  rfl

/-- The store that gave a message its conversation comes of an empty one as before. -/
lemma Reachable.conversationOf (reachable : store.Reachable)
    (h : store.conversationOf participants = some (conversation, store')) : store'.Reachable := by
  rcases of_conversationOf h with rfl | created
  · exact reachable
  · exact after_createConversation created ▸ reachable.after (.createConversation participants)

/-- To give a message its conversation leaves the pictures alone. -/
lemma avatars_conversationOf
    (h : store.conversationOf participants = some (conversation, store')) :
    store'.avatars = store.avatars := by
  rcases of_conversationOf h with rfl | created
  · rfl
  · obtain ⟨_, _, _, rfl⟩ := createConversation_eq_some.mp created
    rfl

/-- To give a message its conversation keeps all conversations that were there. -/
lemma conversations_grow_conversationOf
    (h : store.conversationOf participants = some (conversation, store')) :
    store.conversations.Grows store'.conversations := by
  rcases of_conversationOf h with rfl | created
  · exact .refl _
  · rw [← after_createConversation created]
    exact (step_after store (.createConversation participants)).conversations_grow

/-- Conversations come of nothing but their creation. -/
lemma Step.conversations_eq (step : Step store request store') (isLocal : request.IsLocal store) :
    store'.conversations = store.conversations ∨
      ∃ participants id, request = .createConversation participants ∧
        store.conversations.nextId? = some id ∧
        store'.conversations = store.conversations.put id ⟨id, participants⟩ := by
  cases step with
  | createConversation next => exact .inr ⟨_, _, rfl, next, rfl⟩
  | commitDraft =>
    rw [keepMessage_eq]
    exact .inl rfl
  | saveMessage =>
    obtain ⟨known, found⟩ := isLocal
    rw [Store.saveMessage, keepMessage_eq]
    exact .inl (Table.putNew_of_get? found _)
  | _ => exact .inl rfl

/-- What is first stays first, since a new conversation has a greater number than all before it. -/
theorem IsFirst.after (first : store.IsFirst participants conversation) (request : Request)
    (isLocal : request.IsLocal store) :
    (store.after request).IsFirst participants conversation := by
  have step := step_after store request
  refine ⟨first.members, step.conversations_grow _ _ first.found, fun n other there same => ?_⟩
  rcases step.conversations_eq isLocal with kept | ⟨_, _, _, next, put⟩
  · rw [kept] at there
    exact first.least n other there same
  · rw [put] at there
    rcases Table.of_get?_put there with ⟨rfl, _⟩ | ⟨_, before⟩
    · exact UInt64.le_of_lt (Table.lt_of_nextId? next first.found)
    · exact first.least n other before same

/-- A first conversation stays first when another message gets its conversation. -/
lemma IsFirst.conversationOf (first : store.IsFirst participants conversation)
    {others : AddressSet} {other : Conversation}
    (h : store.conversationOf others = some (other, store')) :
    store'.IsFirst participants conversation := by
  rcases of_conversationOf h with rfl | created
  · exact first
  · rw [← after_createConversation created]
    exact first.after (.createConversation others) trivial

end Store

/-! ## Inboxes -/

/-- A store, with the messages that were given their conversations in it. -/
structure Inbox where
  store : Store
  filed : List (DecodedMessage × Conversation)

namespace Inbox

def empty : Inbox := ⟨.empty, []⟩

/-- A message is given the conversation of those who take part in it. -/
def file (inbox : Inbox) (message : DecodedMessage) : Option Inbox := do
  let (conversation, store) ← inbox.store.conversationOf message.participants
  return ⟨store, (message, conversation) :: inbox.filed⟩

/-- A message is filed, or a request is made of the store. Of the requests those may be made that do
not save a message in a conversation from elsewhere; which of them are made is a parameter. -/
inductive Step (may : Store.Request → Prop) : Inbox → Inbox → Prop where
  | file {inbox later : Inbox} (message : DecodedMessage) :
    inbox.file message = some later →
    Step may inbox later
  | request {inbox : Inbox} (request : Store.Request) :
    may request →
    request.IsLocal inbox.store →
    Step may inbox ⟨inbox.store.after request, inbox.filed⟩

abbrev Run (may : Store.Request → Prop) : Inbox → Inbox → Prop :=
  Relation.ReflTransGen (Step may)

/-- The store has come of an empty one, and every message is in the first conversation of those who
take part in it. -/
structure Sound (inbox : Inbox) : Prop where
  reachable : inbox.store.Reachable
  filed : ∀ message conversation, (message, conversation) ∈ inbox.filed →
    inbox.store.IsFirst message.participants conversation

variable {may : Store.Request → Prop} {inbox later : Inbox}

/-- A message is filed when the store gives it a conversation. -/
lemma file_eq_some {message : DecodedMessage} :
    inbox.file message = some later ↔
      ∃ conversation store,
        inbox.store.conversationOf message.participants = some (conversation, store) ∧
          later = ⟨store, (message, conversation) :: inbox.filed⟩ := by
  rw [file]
  cases inbox.store.conversationOf message.participants with
  | none => exact ⟨nofun, fun ⟨_, _, found, _⟩ => nomatch found⟩
  | some resolved =>
    refine ⟨fun h => ?_, fun ⟨_, _, found, same⟩ => ?_⟩
    · cases h
      exact ⟨_, _, rfl, rfl⟩
    · cases found
      cases same
      rfl

/-- A step keeps every message in the first conversation of those who take part in it. -/
lemma Sound.step (sound : inbox.Sound) (step : Step may inbox later) : later.Sound := by
  cases step with
  | file message filed =>
    obtain ⟨given, store, resolved, rfl⟩ := file_eq_some.mp filed
    refine ⟨sound.reachable.conversationOf resolved, fun other conversation mem => ?_⟩
    rcases List.mem_cons.mp mem with here | before
    · cases here
      exact Store.isFirst_of_conversationOf sound.reachable.consistent resolved
    · exact (sound.filed other conversation before).conversationOf resolved
  | request request _ isLocal =>
    refine ⟨sound.reachable.after _, fun message conversation mem => ?_⟩
    exact (sound.filed message conversation mem).after _ isLocal

/-- A sound inbox stays sound in a run. -/
lemma Sound.run (sound : inbox.Sound) (run : Run may inbox later) : later.Sound := by
  induction run with
  | refl => exact sound
  | tail _ step ih => exact ih.step step

/-- The first message of all gets the first conversation. -/
lemma file_empty (message : DecodedMessage) :
    empty.file message = some
      ⟨{ Store.empty with conversations := Table.empty.put 1 ⟨1, message.participants⟩ },
        [(message, ⟨1, message.participants⟩)]⟩ :=
  file_eq_some.mpr ⟨_, _, Store.conversationOf_empty message.participants, rfl⟩

/-- A message may be saved in the conversation that it was given. -/
lemma Sound.isLocal_saveMessage (sound : inbox.Sound) {message : DecodedMessage}
    {conversation : Conversation} (mem : (message, conversation) ∈ inbox.filed) :
    (Store.Request.saveMessage message conversation).IsLocal inbox.store :=
  ⟨conversation, (sound.filed message conversation mem).found⟩

/-- An empty inbox is sound. -/
lemma sound_empty : empty.Sound := ⟨.empty, fun _ _ mem => absurd mem List.not_mem_nil⟩

/-- Conversations stay as they are. -/
lemma Step.conversations_grow (step : Step may inbox later) :
    inbox.store.conversations.Grows later.store.conversations := by
  cases step with
  | file message filed =>
    obtain ⟨_, _, resolved, rfl⟩ := file_eq_some.mp filed
    exact Store.conversations_grow_conversationOf resolved
  | request => exact (Store.step_after _ _).conversations_grow

/-- No conversation is lost in a run. -/
lemma Run.conversations_grow (run : Run may inbox later) :
    inbox.store.conversations.Grows later.store.conversations := by
  induction run with
  | refl => exact .refl _
  | tail _ step ih => exact ih.trans step.conversations_grow

end Inbox

/-! ## One conversation for each group -/

/-- The request creates no conversation, so that only messages have theirs created. -/
def Store.Request.OpensNone : Request → Prop
  | .createConversation _ => False
  | _ => True

namespace Inbox

/-- Every conversation is the first one of those who take part in it. -/
def Alone (inbox : Inbox) : Prop :=
  ∀ n conversation, inbox.store.conversations.get? n = some conversation →
    inbox.store.IsFirst conversation.participants conversation

variable {inbox later : Inbox}

/-- One step opens no second conversation of the same members. -/
lemma Alone.step (alone : inbox.Alone) (sound : inbox.Sound)
    (step : Step Store.Request.OpensNone inbox later) : later.Alone := by
  intro n conversation there
  cases step with
  | file message filed =>
    obtain ⟨given, store, resolved, rfl⟩ := file_eq_some.mp filed
    rcases Store.of_conversationOf resolved with rfl | created
    · exact alone n conversation there
    · obtain ⟨id, _, rfl, rfl⟩ := Store.createConversation_eq_some.mp created
      rcases Table.of_get?_put there with ⟨_, rfl⟩ | ⟨_, before⟩
      · exact Store.isFirst_of_conversationOf sound.reachable.consistent resolved
      · exact (alone n conversation before).conversationOf resolved
  | request request opens isLocal =>
    rcases (Store.step_after inbox.store request).conversations_eq isLocal with
      same | ⟨_, _, rfl, _⟩
    · refine (alone n conversation ?_).after _ isLocal
      rwa [← same]
    · exact opens.elim

/-- No two conversations of an inbox have the same members, if they were all made by filing. -/
lemma Alone.of_run (run : Run Store.Request.OpensNone empty inbox) : inbox.Alone := by
  induction run with
  | refl =>
    intro n conversation there
    cases there
  | tail before step ih => exact ih.step (sound_empty.run before) step

/-- There is one conversation for each group. Let conversations be created for messages alone,
while requests of all other kinds come, such as to save these messages. Then no two conversations
have the same participants. A conversation that is there keeps its number and its participants,
whatever comes later. Each message is in a conversation of the store with those who take part in it,
and two messages are in the same one exactly if the same accounts take part. -/
theorem conversations_unique (run : Run Store.Request.OpensNone empty inbox)
    (more : Run Store.Request.OpensNone inbox later) :
    (∀ n n' conversation conversation', inbox.store.conversations.get? n = some conversation →
      inbox.store.conversations.get? n' = some conversation' →
      conversation.participants = conversation'.participants → n = n') ∧
    (∀ n conversation, inbox.store.conversations.get? n = some conversation →
      conversation.id = n ∧ later.store.conversations.get? n = some conversation) ∧
    (∀ message conversation, (message, conversation) ∈ inbox.filed →
      inbox.store.conversations.get? conversation.id = some conversation ∧
        conversation.participants = message.participants) ∧
    ∀ message conversation message' conversation', (message, conversation) ∈ inbox.filed →
      (message', conversation') ∈ inbox.filed →
      (conversation.id = conversation'.id ↔ message.participants = message'.participants) := by
  have sound := sound_empty.run run
  have alone := Alone.of_run run
  have keyed := sound.reachable.consistent.conversations
  refine ⟨?_, ?_, ?_, ?_⟩
  · intro n n' conversation conversation' there there' same
    have le := (alone n conversation there).least n' conversation' there' same.symm
    have ge := (alone n' conversation' there').least n conversation there same
    rw [keyed n conversation there] at le
    rw [keyed n' conversation' there'] at ge
    exact UInt64.le_antisymm le ge
  · intro n conversation there
    exact ⟨keyed n conversation there, more.conversations_grow n conversation there⟩
  · intro message conversation mem
    have first := sound.filed message conversation mem
    exact ⟨first.found, first.members⟩
  · intro message conversation message' conversation' mem mem'
    have first := sound.filed message conversation mem
    have first' := sound.filed message' conversation' mem'
    refine ⟨fun same => ?_, fun same => ?_⟩
    · have here := first.found
      rw [same, first'.found, Option.some.injEq] at here
      rw [← first.members, ← here, first'.members]
    · rw [← same] at first'
      exact UInt64.le_antisymm (first.least _ _ first'.found first'.members)
        (first'.least _ _ first.found first.members)

/-- Bob writes, then Bob to a group with Carol, then Bob again. His first message is saved, and a
draft in its conversation is sent, before the others come. -/
theorem conversations_unique_three :
    let bob : Address := ⟨"bob", "example.org", by decide, by decide⟩
    let carol : Address := ⟨"carol", "example.org", by decide, by decide⟩
    let date : DateTime := ⟨⟨2024, 2, 29, 12, 30, 0, 0, 60⟩, by decide⟩
    let message (id : UInt64) (participants : List Address) : DecodedMessage := ⟨
      ⟨id, 0, date, date, bob, "Hi", "", ⟨List.replicate 32 0⟩, 1, false, false, 4⟩,
      ⟨bob, "Bob", "", none⟩, .ofList participants, [], []⟩
    ∃ (inbox : Inbox) (first second third : Conversation),
      Run Store.Request.OpensNone empty inbox ∧
      inbox.filed = [(message 9 [bob], third), (message 8 [bob, carol], second),
        (message 7 [bob], first)] ∧
      third.id = first.id ∧ second.id ≠ first.id ∧
      inbox.store.conversations.get? third.id = some third := by
  intro bob carol date message
  let first : Conversation := ⟨1, .ofList [bob]⟩
  let inbox₁ : Inbox := ⟨{ Store.empty with conversations := Table.empty.put 1 first },
    [(message 7 [bob], first)]⟩
  have run₁ : Run Store.Request.OpensNone empty inbox₁ :=
    .single (.file _ (file_empty (message 7 [bob])))
  have saved : (Store.Request.saveMessage (message 7 [bob]) first).IsLocal inbox₁.store :=
    (sound_empty.run run₁).isLocal_saveMessage (.head _)
  let saving : Store.Request := .saveMessage (message 7 [bob]) first
  let writing : Store.Request := .saveDraft ⟨first.id, "Ann", "", none, "Hello", ""⟩
  let sending : Store.Request :=
    .commitDraft first.id ⟨"ann", "example.org", by decide, by decide⟩ date
  let inbox₂ : Inbox := ⟨inbox₁.store.afterAll [saving, writing, sending], inbox₁.filed⟩
  have run₂ : Run Store.Request.OpensNone empty inbox₂ :=
    ((run₁.tail (.request saving trivial saved)).tail (.request writing trivial trivial)).tail
      (.request sending trivial trivial)
  -- there is a number for a second conversation, and Bob's is found again
  have next : inbox₂.store.conversations.nextId? = some 2 := rfl
  obtain ⟨second, store, resolved⟩ :=
    Store.exists_conversationOf next (message 8 [bob, carol]).participants
  have run₃ := run₂.tail (.file (message 8 [bob, carol]) (file_eq_some.mpr ⟨_, _, resolved, rfl⟩))
  have again := ((sound_empty.run run₃).filed _ _ (.tail _ (.head _))).conversationOf_eq
  have run₄ := run₃.tail (.file (message 9 [bob]) (file_eq_some.mpr ⟨_, _, again, rfl⟩))
  obtain ⟨inbox, third, run, filed⟩ : ∃ inbox third,
      Run Store.Request.OpensNone empty inbox ∧
      inbox.filed = [(message 9 [bob], third), (message 8 [bob, carol], second),
        (message 7 [bob], first)] := ⟨_, _, run₄, rfl⟩
  have mem₁ : (message 7 [bob], first) ∈ inbox.filed := by simp [filed]
  have mem₂ : (message 8 [bob, carol], second) ∈ inbox.filed := by simp [filed]
  have mem₃ : (message 9 [bob], third) ∈ inbox.filed := by simp [filed]
  obtain ⟨_, _, there, same⟩ := conversations_unique run .refl
  refine ⟨inbox, first, second, third, run, filed, (same _ _ _ _ mem₃ mem₁).mpr rfl,
    fun equal => ?_, (there _ _ mem₃).1⟩
  have sets := (same _ _ _ _ mem₂ mem₁).mp equal
  exact absurd sets (show AddressSet.ofList [bob, carol] ≠ .ofList [bob] by decide)

end Inbox

end SealedMail
