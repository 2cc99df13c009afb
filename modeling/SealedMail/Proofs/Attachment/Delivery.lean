import Mathlib.Algebra.Ring.Nat
import SealedMail.Attachment.Splitter
import SealedMail.Proofs.Results

/-!
# Delivered attachments

What the sinks of a factory get. A stream that is cut at the sizes of its slots (`slices`) is
delivered (`SinkFactory.Delivers`) if for one slot after the other a sink is made, the slice is
written to it in some pieces, and it is closed, with nothing else in between.

A factory that never fails (`SinkFactory.Reliable`) can be given anything. One that compares digests
can not, so that most statements ask less of it: a slot accepts its slice (`SinkFactory.Accepts`) if
every beginning of the slice can be written, and the sink can be closed after all of it. The
opposite is a call that is refused (`SinkFactory.Refuses`). Where sinks keep their payloads back until
they are closed (`SinkFactory.Withholds`), a run that fails has delivered to some slots from the first
one on, and has done nothing else (`SinkFactory.DeliversFirst`).
-/

namespace SealedMail

variable {σ κ : Type}

/-! ## Slices -/

/-- How many bytes the payloads of the slots have together. -/
def totalSize (slots : List Slot) : Nat := (slots.map fun slot => slot.size.toNat).sum

/-- The stream cut at the sizes of the slots. -/
def slices : List Slot → Bytes → List (Slot × Bytes)
  | [], _ => []
  | slot :: rest, stream =>
    (slot, stream.take slot.size.toNat) :: slices rest (stream.drop slot.size.toNat)

@[simp]
lemma totalSize_nil : totalSize [] = 0 := rfl

/-- The first slot takes its bytes before the others. -/
@[simp]
lemma totalSize_cons (slot : Slot) (rest : List Slot) :
    totalSize (slot :: rest) = slot.size.toNat + totalSize rest := rfl

/-- The place at which data of a given length ends within a payload is unique. -/
lemma eq_of_totalSize_lt {full full' rest rest' : List Slot} {slot slot' : Slot} {n : Nat}
    (same : full ++ slot :: rest = full' ++ slot' :: rest')
    (room : totalSize full ≤ n) (short : n < totalSize full + slot.size.toNat)
    (room' : totalSize full' ≤ n) (short' : n < totalSize full' + slot'.size.toNat) :
    full = full' := by
  induction full generalizing full' n with
  | nil =>
    cases full' with
    | nil => rfl
    | cons first full' =>
      obtain ⟨rfl, _⟩ := List.cons.inj same
      rw [totalSize_cons] at room'
      rw [totalSize_nil] at short
      omega
  | cons first full ih =>
    rw [totalSize_cons] at room short
    cases full' with
    | nil =>
      obtain ⟨rfl, _⟩ := List.cons.inj same
      rw [totalSize_nil] at short'
      omega
    | cons first' full' =>
      obtain ⟨rfl, tails⟩ := List.cons.inj same
      rw [totalSize_cons] at room' short'
      rw [ih (n := n - first.size.toNat) tails (by omega) (by omega) (by omega) (by omega)]

/-- Data that begins with a whole payload is cut behind it. -/
lemma slices_cons_append {slot : Slot} {content : Bytes} (h : content.length = slot.size.toNat)
    (rest : List Slot) (stream : Bytes) :
    slices (slot :: rest) (content ++ stream) = (slot, content) :: slices rest stream := by
  rw [slices, ← h, List.take_left, List.drop_left]

/-- What comes after the last slice is in none of them. -/
lemma slices_append {slots : List Slot} {stream : Bytes} (h : totalSize slots ≤ stream.length)
    (more : Bytes) : slices slots (stream ++ more) = slices slots stream := by
  induction slots generalizing stream with
  | nil => rfl
  | cons slot rest ih =>
    rw [totalSize_cons] at h
    rw [slices, slices, List.take_append_of_le_length (by omega),
      List.drop_append_of_le_length (by omega), ih]
    rw [List.length_drop]
    omega

/-- Each slice is as long as its slot, if there are bytes for all of them. -/
lemma length_of_mem_slices {slots : List Slot} {stream : Bytes}
    (h : totalSize slots ≤ stream.length) :
    ∀ part ∈ slices slots stream, part.2.length = part.1.size.toNat := by
  induction slots generalizing stream with
  | nil => exact List.forall_mem_nil _
  | cons slot rest ih =>
    rw [totalSize_cons] at h
    refine List.forall_mem_cons.mpr ⟨List.length_take_of_le (by omega), ih ?_⟩
    rw [List.length_drop]
    omega

/-- Slices that are whole in the beginning of a stream are slices of the stream. -/
lemma mem_slices_of_begins {slots : List Slot} {begins stream : Bytes} (h : begins <+: stream)
    {part : Slot × Bytes} (mem : part ∈ slices slots begins)
    (whole : part.2.length = part.1.size.toNat) : part ∈ slices slots stream := by
  induction slots generalizing begins stream with
  | nil => exact mem
  | cons slot rest ih =>
    obtain ⟨more, rfl⟩ := h
    rcases List.mem_cons.mp mem with rfl | later
    · have room : slot.size.toNat ≤ begins.length := by
        rw [← whole]
        exact List.length_take_le' _ _
      rw [slices, List.take_append_of_le_length room]
      exact List.mem_cons_self
    · refine List.mem_cons_of_mem _ (ih ?_ later)
      rw [List.drop_append]
      exact List.prefix_append _ _

/-- The slices together are the stream, as far as the slots go. -/
lemma flatMap_slices (slots : List Slot) (stream : Bytes) :
    (slices slots stream).flatMap Prod.snd = stream.take (totalSize slots) := by
  induction slots generalizing stream with
  | nil => rfl
  | cons slot rest ih => rw [slices, List.flatMap_cons, ih, totalSize_cons, List.take_add]

namespace SinkFactory

variable (factory : SinkFactory σ κ)

/-! ## One sink -/

/-- A sink was made for the slot, and these pieces were written to it. -/
inductive Begun (slot : Slot) : List Bytes → σ → κ → σ → Prop where
  | make {s own s'} :
    factory.make slot s = (.ok own, s') →
    Begun slot [] s own s'
  | write {pieces b s own s' own' s''} :
    Begun slot pieces s own s' →
    factory.sink.write b (own, s') = (.ok (), own', s'') →
    Begun slot (pieces ++ [b]) s own' s''

/-- The sink of the slot takes every beginning of the payload, and can be closed after all of it. -/
structure Accepts (slot : Slot) (content : Bytes) : Prop where
  make : ∀ s, ∃ own s', factory.make slot s = (.ok own, s')
  write : ∀ {pieces b s own s'}, factory.Begun slot pieces s own s' →
    pieces.flatten ++ b <+: content →
    ∃ own' s'', factory.sink.write b (own, s') = (.ok (), own', s'')
  close : ∀ {pieces s own s'}, factory.Begun slot pieces s own s' →
    pieces.flatten = content →
    ∃ own' s'', factory.sink.close (own, s') = (.ok (), own', s'')

/-- A call about the slot failed, the sink of which took every beginning of the payload before: it
was not made, or did not take more of the payload, or could not be closed after all of it. -/
inductive Refuses (slot : Slot) (content : Bytes) (e : MailError) : σ → σ → Prop where
  | make {s s'} :
    factory.make slot s = (.error e, s') →
    Refuses slot content e s s'
  | write {pieces b s own s' own' s''} :
    factory.Begun slot pieces s own s' →
    pieces.flatten ++ b <+: content →
    factory.sink.write b (own, s') = (.error e, own', s'') →
    Refuses slot content e s s''
  | close {pieces s own s' own' s''} :
    factory.Begun slot pieces s own s' →
    pieces.flatten = content →
    content.length = slot.size.toNat →
    factory.sink.close (own, s') = (.error e, own', s'') →
    Refuses slot content e s s''

/-- No call to the factory or to one of its sinks fails. -/
structure Reliable : Prop where
  make : ∀ slot s, ∃ own s', factory.make slot s = (.ok own, s')
  write : ∀ b own s, ∃ own' s', factory.sink.write b (own, s) = (.ok (), own', s')
  close : ∀ own s, ∃ own' s', factory.sink.close (own, s) = (.ok (), own', s')

variable {factory}

/-- A reliable factory accepts every payload for every slot. -/
lemma Reliable.accepts (reliable : factory.Reliable) (slot : Slot) (content : Bytes) :
    factory.Accepts slot content where
  make := reliable.make slot
  write _ _ := reliable.write _ _ _
  close _ _ := reliable.close _ _

/-- A payload that is accepted is not refused, nor is a beginning of it. -/
lemma Accepts.not_refuses {slot : Slot} {content part : Bytes} {e : MailError} {s s' : σ}
    (accepts : factory.Accepts slot content) (fits : content.length ≤ slot.size.toNat)
    (begins : part <+: content) : ¬ factory.Refuses slot part e s s' := by
  intro refuses
  cases refuses with
  | make made =>
    obtain ⟨own, s'', made'⟩ := accepts.make s
    rw [made] at made'
    cases made'
  | write begun more written =>
    obtain ⟨own', s'', written'⟩ := accepts.write begun (more.trans begins)
    rw [written] at written'
    cases written'
  | close begun whole full closed =>
    have all := begins.eq_of_length_le (full ▸ fits)
    obtain ⟨own', s'', closed'⟩ := accepts.close begun (whole.trans all)
    rw [closed] at closed'
    cases closed'

/-- A sink to which pieces were written was made, and the pieces were written one by one. -/
lemma Begun.forM_write {slot : Slot} {pieces : List Bytes} {s s' : σ} {own : κ}
    (begun : factory.Begun slot pieces s own s') :
    ∃ first state, factory.make slot s = (.ok first, state) ∧
      pieces.forM factory.sink.write (first, state) = (.ok (), own, s') := by
  induction begun with
  | make made => exact ⟨_, _, made, rfl⟩
  | write _ written ih =>
    obtain ⟨first, state, made, writes⟩ := ih
    refine ⟨first, state, made, ?_⟩
    rw [List.forM_eq_forM] at writes ⊢
    rw [List.forM_append, MailM.bind_ok writes, List.forM_cons, MailM.bind_ok written]
    rfl

variable (factory) in
/-- A sink was made for the slot, the payload was written to it in these pieces, and it was
closed. -/
def Delivered (slot : Slot) (pieces : List Bytes) (s s' : σ) : Prop :=
  ∃ own s₁ own', factory.Begun slot pieces s own s₁ ∧
    factory.sink.close (own, s₁) = (.ok (), own', s')

/-- To deliver a payload is to make a sink, write the pieces and close it. -/
lemma Delivered.deliver {slot : Slot} {pieces : List Bytes} {s s' : σ}
    (delivered : factory.Delivered slot pieces s s') :
    factory.deliver slot pieces s = (.ok (), s') := by
  obtain ⟨own, s₁, own', begun, closed⟩ := delivered
  obtain ⟨first, state, made, writes⟩ := begun.forM_write
  rw [SinkFactory.deliver, MailM.bind_ok made, MailM.bind_ok writes, closed]

/-! ## All sinks -/

/-- For one slot after the other, a sink is made, the payload is written to it in some pieces, and
it is closed. -/
inductive Delivers (factory : SinkFactory σ κ) : List (Slot × Bytes) → σ → σ → Prop where
  | nil {s} : Delivers factory [] s s
  | cons {slot pieces rest s s' s''} :
    factory.Delivered slot pieces s s' →
    Delivers factory rest s' s'' →
    Delivers factory ((slot, pieces.flatten) :: rest) s s''

/-- What was delivered to a first slot was delivered before the rest. -/
lemma Delivers.of_cons {slot : Slot} {content : Bytes} {rest : List (Slot × Bytes)} {s s' : σ}
    (delivers : factory.Delivers ((slot, content) :: rest) s s') :
    ∃ pieces s₁, pieces.flatten = content ∧ factory.Delivered slot pieces s s₁ ∧
      factory.Delivers rest s₁ s' := by
  generalize parts : (slot, content) :: rest = all at delivers
  cases delivers with
  | nil => cases parts
  | cons delivered later =>
    cases parts
    exact ⟨_, _, rfl, delivered, later⟩

/-- Slots get their slices of a stream if the first one gets its payload, and the others what comes
after it. -/
lemma Delivers.cons_slices {slot : Slot} {rest : List Slot} {pieces : List Bytes} {stream : Bytes}
    {s s' s'' : σ} (delivered : factory.Delivered slot pieces s s')
    (full : pieces.flatten.length = slot.size.toNat)
    (later : factory.Delivers (slices rest stream) s' s'') :
    factory.Delivers (slices (slot :: rest) (pieces.flatten ++ stream)) s s'' := by
  rw [slices_cons_append full]
  exact .cons delivered later

/-- Every slot accepts its slice of the stream. -/
def AcceptsAll (factory : SinkFactory σ κ) (slots : List Slot) (stream : Bytes) : Prop :=
  ∀ part ∈ slices slots stream, factory.Accepts part.1 part.2

/-- A reliable factory accepts every stream. -/
lemma Reliable.acceptsAll (reliable : factory.Reliable) (slots : List Slot) (stream : Bytes) :
    factory.AcceptsAll slots stream := fun _ _ => reliable.accepts _ _

/-- A stream is accepted if its first payload is, and what comes after that. -/
lemma acceptsAll_cons_append {slot : Slot} {content : Bytes}
    (h : content.length = slot.size.toNat) {rest : List Slot} {stream : Bytes} :
    factory.AcceptsAll (slot :: rest) (content ++ stream) ↔
      factory.Accepts slot content ∧ factory.AcceptsAll rest stream := by
  rw [AcceptsAll, slices_cons_append h, List.forall_mem_cons]
  rfl

/-- The first slice of an accepted stream is accepted. -/
lemma AcceptsAll.head {slot : Slot} {rest : List Slot} {stream : Bytes}
    (h : factory.AcceptsAll (slot :: rest) stream) :
    factory.Accepts slot (stream.take slot.size.toNat) := by
  rw [AcceptsAll, slices, List.forall_mem_cons] at h
  exact h.1

/-! ## The first sinks -/

/-- Some of the slots, from the first one on, got their slices of the stream, which has all of
them. -/
def DeliversFirst (factory : SinkFactory σ κ) (slots : List Slot) (stream : Bytes) (s s' : σ) :
    Prop :=
  ∃ full rest, slots = full ++ rest ∧ totalSize full ≤ stream.length ∧
    factory.Delivers (slices full stream) s s'

/-- Without any delivery no slot has its slice. -/
lemma deliversFirst_none (slots : List Slot) (stream : Bytes) (s : σ) :
    factory.DeliversFirst slots stream s s := ⟨[], slots, rfl, Nat.zero_le _, .nil⟩

/-- A payload that was delivered comes before those that were delivered after it. -/
lemma DeliversFirst.cons {slot : Slot} {rest : List Slot} {pieces : List Bytes} {stream : Bytes}
    {s s' s'' : σ} (later : factory.DeliversFirst rest stream s' s'')
    (delivered : factory.Delivered slot pieces s s')
    (full : pieces.flatten.length = slot.size.toNat) :
    factory.DeliversFirst (slot :: rest) (pieces.flatten ++ stream) s s'' := by
  obtain ⟨first, rest, rfl, room, delivers⟩ := later
  refine ⟨slot :: first, rest, rfl, ?_, Delivers.cons_slices delivered full delivers⟩
  rw [totalSize_cons, List.length_append, full]
  exact Nat.add_le_add_left room _

/-- What was delivered of the beginning of a stream was delivered of the stream. -/
lemma DeliversFirst.of_begins {slots : List Slot} {part stream : Bytes} {s s' : σ}
    (delivers : factory.DeliversFirst slots part s s') (begins : part <+: stream) :
    factory.DeliversFirst slots stream s s' := by
  obtain ⟨full, rest, rfl, room, delivers⟩ := delivers
  obtain ⟨more, rfl⟩ := begins
  refine ⟨full, rest, rfl, ?_, ?_⟩
  · rw [List.length_append]
    exact Nat.le_add_right_of_le room
  · rw [slices_append room]
    exact delivers

/-- Nothing but closing a sink changes what the sinks share, and not if it fails. -/
structure Withholds (factory : SinkFactory σ κ) : Prop where
  make : ∀ {slot s result s'}, factory.make slot s = (result, s') → s' = s
  write : ∀ {b own s result own' s'}, factory.sink.write b (own, s) = (result, own', s') → s' = s
  close : ∀ {own s e own' s'}, factory.sink.close (own, s) = (.error e, own', s') → s' = s

/-- Nothing has changed as long as a sink is open. -/
lemma Withholds.eq_of_begun (withholds : factory.Withholds) {slot : Slot} {pieces : List Bytes}
    {own : κ} {s s' : σ} (begun : factory.Begun slot pieces s own s') : s' = s := by
  induction begun with
  | make made => exact withholds.make made
  | write _ written ih => exact (withholds.write written).trans ih

/-- Nothing changes if a sink refuses. -/
lemma Withholds.eq_of_refuses (withholds : factory.Withholds) {slot : Slot} {content : Bytes}
    {e : MailError} {s s' : σ} (refuses : factory.Refuses slot content e s s') : s' = s := by
  cases refuses with
  | make made => exact withholds.make made
  | write begun _ written => exact (withholds.write written).trans (withholds.eq_of_begun begun)
  | close begun _ _ closed => exact (withholds.close closed).trans (withholds.eq_of_begun begun)

end SinkFactory

end SealedMail
