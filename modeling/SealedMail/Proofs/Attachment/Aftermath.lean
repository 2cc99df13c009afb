import SealedMail.Proofs.Attachment.Receiving

/-!
# Going on after a failure

A splitter can be written to after a write has failed, and it can be closed. How far it has come
then is in `Splitter.Stage`: slots from the first one on were filled and closed, and the next one
has an open sink, or was given up. A slot is given up (`SinkFactory.GivenUp`) when its sink could
not be made or could not be closed. The splitter does not remember this: it has no open sink then,
as after the last slot. So every later piece is refused, and closing succeeds if the slot was the
last one (`Splitter.closed_after_attempts`).

An open sink that refuses bytes stays open with as much room as before, and the bytes are lost. What
the sinks of a slot took is therefore told without them (`SinkFactory.Fed`), and what was taken of
the pieces by a beginning of each piece (`Splitter.Routed`).
-/

namespace SealedMail

variable {σ κ : Type} {factory : SinkFactory σ κ}

/-! ## What sinks took -/

namespace SinkFactory

/-- A sink was made for the slot, and has taken these bytes; it may have refused others. -/
inductive Fed (factory : SinkFactory σ κ) (slot : Slot) : Bytes → σ → κ → σ → Prop where
  | make {s own s'} :
    factory.make slot s = (.ok own, s') →
    Fed factory slot [] s own s'
  | took {content b s own s' own' s''} :
    Fed factory slot content s own s' →
    factory.sink.write b (own, s') = (.ok (), own', s'') →
    Fed factory slot (content ++ b) s own' s''
  | refused {content b e s own s' own' s''} :
    Fed factory slot content s own s' →
    factory.sink.write b (own, s') = (.error e, own', s'') →
    Fed factory slot content s own' s''

/-- A sink was made for the slot, has taken the payload, and was closed. -/
def Completed (factory : SinkFactory σ κ) (slot : Slot) (content : Bytes) (s s' : σ) : Prop :=
  ∃ own s₁ own', factory.Fed slot content s own s₁ ∧
    factory.sink.close (own, s₁) = (.ok (), own', s')

/-- For one slot after the other, a sink is made, takes the payload, and is closed. -/
inductive Completes (factory : SinkFactory σ κ) : List (Slot × Bytes) → σ → σ → Prop where
  | nil {s} : Completes factory [] s s
  | cons {slot content rest s s' s''} :
    factory.Completed slot content s s' →
    Completes factory rest s' s'' →
    Completes factory ((slot, content) :: rest) s s''

/-- The sink of the slot could not be made, or took the whole payload and could not be closed. -/
inductive GivenUp (factory : SinkFactory σ κ) (slot : Slot) : Bytes → σ → σ → Prop where
  | make {e s s'} :
    factory.make slot s = (.error e, s') →
    GivenUp factory slot [] s s'
  | close {content e s own s' own' s''} :
    factory.Fed slot content s own s' →
    content.length = slot.size.toNat →
    factory.sink.close (own, s') = (.error e, own', s'') →
    GivenUp factory slot content s s''

variable {slot : Slot} {pieces : List Bytes} {content b : Bytes} {own own' : κ} {s s' s'' : σ}
  {e : MailError}

/-- A sink that has taken anything was made. -/
lemma Fed.made (fed : factory.Fed slot content s own s') :
    ∃ first s'', factory.make slot s = (.ok first, s'') := by
  induction fed with
  | make made => exact ⟨_, _, made⟩
  | took _ _ ih => exact ih
  | refused _ _ ih => exact ih

/-- A sink to which pieces were written has taken them. -/
lemma Begun.fed (begun : factory.Begun slot pieces s own s') :
    factory.Fed slot pieces.flatten s own s' := by
  induction begun with
  | make made => exact .make made
  | write _ written ih =>
    rw [List.flatten_append, List.flatten_singleton]
    exact .took ih written

/-- What was delivered was completed. -/
lemma Delivers.completes {parts : List (Slot × Bytes)} (delivers : factory.Delivers parts s s') :
    factory.Completes parts s s' := by
  induction delivers with
  | nil => exact .nil
  | cons delivered _ ih =>
    obtain ⟨own, s₁, own', begun, closed⟩ := delivered
    exact .cons ⟨own, s₁, own', begun.fed, closed⟩ ih

/-- Slots are completed with their slices of a stream if the first one is, and the others with what
comes after it. -/
lemma Completes.cons_slices {rest : List Slot} {stream : Bytes}
    (completed : factory.Completed slot content s s') (full : content.length = slot.size.toNat)
    (later : factory.Completes (slices rest stream) s' s'') :
    factory.Completes (slices (slot :: rest) (content ++ stream)) s s'' := by
  rw [slices_cons_append full]
  exact .cons completed later

end SinkFactory

namespace Splitter

open SinkFactory

/-! ## The invariant -/

/-- After calls that may have failed, the sinks have taken these bytes. Full slots were completed;
the next one has an open sink, or was given up. -/
inductive Stage (factory : SinkFactory σ κ) :
    List Slot → Bytes → σ → Splitter κ → σ → Prop where
  | finished {s} : Stage factory [] [] s ⟨[], none, 0⟩ s
  | filling {slot rest content s own s'} :
    factory.Fed slot content s own s' →
    content.length ≤ slot.size.toNat →
    Stage factory (slot :: rest) content s ⟨rest, some own, slot.size.toNat - content.length⟩ s'
  | givenUp {slot rest content s s'} :
    factory.GivenUp slot content s s' →
    Stage factory (slot :: rest) content s ⟨rest, none, 0⟩ s'
  | filled {slot rest content taken splitter s s' s''} :
    factory.Completed slot content s s' →
    content.length = slot.size.toNat →
    Stage factory rest taken s' splitter s'' →
    Stage factory (slot :: rest) (content ++ taken) s splitter s''

/-- What was taken of a piece is a beginning of it, and all of it if the write succeeded. -/
def Routed (part : Bytes) (attempt : Bytes × Except MailError Unit) : Prop :=
  part <+: attempt.1 ∧ (attempt.2 = .ok () → part = attempt.1)

/-- The invariant holds after a write of the piece, with what was taken of it. -/
def Advances (factory : SinkFactory σ κ) (slots : List Slot) (taken b : Bytes) (s : σ)
    (outcome : Except MailError Unit × Splitter κ × σ) : Prop :=
  ∃ part, Routed part (b, outcome.1) ∧
    Stage factory slots (taken ++ part) s outcome.2.1 outcome.2.2

/-- All slots but the last one were completed, and that one was given up. -/
def LastGivenUp (factory : SinkFactory σ κ) (slots : List Slot) (taken : Bytes) (s s' : σ) : Prop :=
  ∃ full last s₁, slots = full ++ [last] ∧ totalSize full ≤ taken.length ∧
    factory.Completes (slices full taken) s s₁ ∧
    factory.GivenUp last (taken.drop (totalSize full)) s₁ s'

variable {slot : Slot} {slots pending : List Slot} {content taken b : Bytes} {own own' : κ}
  {splitter splitter' : Splitter κ} {s s' s'' : σ} {e : MailError}

/-- All of a piece is a beginning of it, whether its write succeeded or not. -/
lemma Routed.all (b : Bytes) (result : Except MailError Unit) : Routed b (b, result) :=
  ⟨List.prefix_refl b, fun _ => rfl⟩

/-- Any beginning may be taken of a piece whose write failed. -/
lemma Routed.beginning {part : Bytes} (begins : part <+: b) : Routed part (b, .error e) :=
  ⟨begins, nofun⟩

/-- What was taken behind the bytes of a full slot counts with them. -/
lemma Routed.append {part rest : Bytes} {result : Except MailError Unit}
    (routed : Routed part (rest, result)) (more : Bytes) :
    Routed (more ++ part) (more ++ rest, result) :=
  ⟨(List.prefix_append_right_inj more).mpr routed.1, fun ok => congrArg (more ++ ·) (routed.2 ok)⟩

/-- All of every piece may have been taken. -/
lemma Routed.forall₂_all {pieces : List Bytes} {results : List (Except MailError Unit)}
    (h : pieces.length ≤ results.length) : List.Forall₂ Routed pieces (pieces.zip results) := by
  have each : List.Forall₂ Routed ((pieces.zip results).map Prod.fst) (pieces.zip results) :=
    List.forall₂_map_left_iff.mpr (List.forall₂_same.mpr fun attempt _ => .all attempt.1 attempt.2)
  rwa [List.map_fst_zip h] at each

/-- As long as no call fails, nothing is given up. -/
lemma Stands.stage {part : Bytes} (stands : Stands factory slots part s splitter s') :
    Stage factory slots part s splitter s' := by
  induction stands with
  | finished => exact .finished
  | filling begun room => exact .filling begun.fed room
  | filled delivered full _ ih =>
    obtain ⟨own, s₁, own', begun, closed⟩ := delivered
    exact .filled ⟨own, s₁, own', begun.fed, closed⟩ full ih

/-! ## One piece -/

/-- Bytes that were written are taken, also if there are none. -/
lemma fed_of_writeSome (fed : factory.Fed slot content s own s')
    (written : writeSome factory own b s' = (.ok (), own', s'')) :
    factory.Fed slot (content ++ b) s own' s'' := by
  cases b with
  | nil =>
    cases written
    rw [List.append_nil]
    exact fed
  | cons x b => exact .took fed written

/-- Behind a slot that was completed, the next sink is made, and is given what is left. -/
lemma fillOn_advances {rest more : Bytes} (completed : factory.Completed slot content s s')
    (full : content.length = slot.size.toNat) (whole : taken ++ more = content)
    (goesOn : ∀ next later own s'', pending = next :: later →
      factory.make next s' = (.ok own, s'') →
      Advances factory (next :: later) [] rest s'
        (fill factory later own next.size.toNat rest s'')) :
    Advances factory (slot :: pending) taken (more ++ rest) s
      (fillOn factory rest s' pending) := by
  -- what is taken of the rest is taken behind the slot
  have behind {outcome : Except MailError Unit × Splitter κ × σ}
      (h : Advances factory pending [] rest s' outcome) :
      Advances factory (slot :: pending) taken (more ++ rest) s outcome := by
    obtain ⟨part, routed, stage⟩ := h
    refine ⟨more ++ part, routed.append more, ?_⟩
    rw [← List.append_assoc, whole]
    exact .filled completed full stage
  apply behind
  cases pending with
  | nil =>
    cases rest with
    | nil => exact ⟨[], .all [] _, .finished⟩
    | cons x rest => exact ⟨[], .beginning List.nil_prefix, .finished⟩
  | cons next later =>
    rw [fillOn]
    cases made : factory.make next s' with
    | mk result s'' =>
      cases result with
      | error e => exact ⟨[], .beginning List.nil_prefix, .givenUp (.make made)⟩
      | ok own =>
        cases rest with
        | nil => exact ⟨[], .all [] _, .filling (.make made) (Nat.zero_le _)⟩
        | cons x rest => exact goesOn next later own s'' rfl made

/-- An open sink that refuses bytes stays open, with as much room as before. -/
lemma advances_of_refused {more : Bytes} (fed : factory.Fed slot taken s own s')
    (room : taken.length ≤ slot.size.toNat)
    (written : writeSome factory own more s' = (.error e, own', s'')) :
    Advances factory (slot :: pending) taken b s
      (.error e, ⟨pending, some own', slot.size.toNat - taken.length⟩, s'') := by
  refine ⟨[], .beginning List.nil_prefix, ?_⟩
  rw [List.append_nil]
  exact .filling (.refused fed (write_of_writeSome written)) room

/-- What comes of a piece for the open sink, given what comes of the rest for the next one. -/
lemma fill_advances_of (fed : factory.Fed slot taken s own s')
    (room : taken.length ≤ slot.size.toNat)
    (goesOn : ∀ next later own s s' rest, pending = next :: later →
      factory.make next s = (.ok own, s') →
      Advances factory (next :: later) [] rest s (fill factory later own next.size.toNat rest s')) :
    Advances factory (slot :: pending) taken b s
      (fill factory pending own (slot.size.toNat - taken.length) b s') := by
  obtain short | ⟨more, rest, rfl, length_more⟩ := room_cases b (slot.size.toNat - taken.length)
  · rw [fill_eq, if_pos short]
    cases written : writeSome factory own b s' with
    | mk result state =>
      obtain ⟨own', s''⟩ := state
      cases result with
      | error e => exact advances_of_refused fed room written
      | ok =>
        have fed' := fed_of_writeSome fed written
        refine ⟨b, .all b _, ?_⟩
        rw [Nat.sub_sub, ← List.length_append]
        refine .filling fed' ?_
        rw [List.length_append]
        omega
  · have full : (taken ++ more).length = slot.size.toNat := by
      rw [List.length_append, length_more, Nat.add_sub_cancel' room]
    rw [← length_more, fill_append]
    cases written : writeSome factory own more s' with
    | mk result state =>
      obtain ⟨own', s₁⟩ := state
      cases result with
      | error e =>
        rw [length_more]
        exact advances_of_refused fed room written
      | ok =>
        have fed' := fed_of_writeSome fed written
        simp only [closeSink]
        cases closed : factory.sink.close (own', s₁) with
        | mk result state =>
          obtain ⟨own'', s₂⟩ := state
          cases result with
          | error e =>
            exact ⟨more, .beginning (List.prefix_append _ _), .givenUp (.close fed' full closed)⟩
          | ok =>
            refine fillOn_advances ⟨own', s₁, own'', fed', closed⟩ full rfl ?_
            exact fun next later own s'' => goesOn next later own _ s'' rest

/-- What comes of a piece for the open sink and the ones after it. -/
lemma fill_advances (fed : factory.Fed slot taken s own s')
    (room : taken.length ≤ slot.size.toNat) :
    Advances factory (slot :: pending) taken b s
      (fill factory pending own (slot.size.toNat - taken.length) b s') := by
  -- on the slots behind the open sink, in the order in which filling comes to them
  induction pending generalizing slot taken own s s' b with
  | nil => exact fill_advances_of fed room nofun
  | cons next pending ih =>
    refine fill_advances_of fed room ?_
    rintro _ _ own s₁ s₂ rest ⟨⟩ made
    exact ih (.make made) (Nat.zero_le _)

/-- A piece keeps the invariant, also where it is refused. -/
lemma Stage.write_advances (stage : Stage factory slots taken s splitter s') (b : Bytes) :
    Advances factory slots taken b s (Splitter.write factory b (splitter, s')) := by
  cases b with
  | nil =>
    refine ⟨[], .all [] _, ?_⟩
    rw [List.append_nil]
    exact stage
  | cons x b =>
    induction stage with
    | finished => exact ⟨[], .beginning List.nil_prefix, .finished⟩
    | filling fed room => exact fill_advances fed room
    | givenUp failed =>
      refine ⟨[], .beginning List.nil_prefix, ?_⟩
      rw [List.append_nil]
      exact .givenUp failed
    | filled completed full _ ih =>
      obtain ⟨part, routed, stage⟩ := ih
      refine ⟨part, routed, ?_⟩
      rw [List.append_assoc]
      exact .filled completed full stage

/-! ## All pieces -/

/-- Pieces keep the invariant, whichever of them are refused. -/
lemma Stage.attempts (stage : Stage factory slots taken s splitter s') (pieces : List Bytes) :
    let outcome := MailM.attempts (Splitter.write factory) pieces (splitter, s')
    ∃ parts, List.Forall₂ Routed parts (pieces.zip outcome.1) ∧
      Stage factory slots (taken ++ parts.flatten) s outcome.2.1 outcome.2.2 := by
  induction pieces generalizing taken splitter s' with
  | nil =>
    refine ⟨[], .nil, ?_⟩
    rw [List.flatten_nil, List.append_nil]
    exact stage
  | cons piece rest ih =>
    obtain ⟨part, routed, stage'⟩ := stage.write_advances piece
    obtain ⟨parts, routed', stage''⟩ := ih stage'
    refine ⟨part :: parts, .cons routed routed', ?_⟩
    rw [List.flatten_cons, ← List.append_assoc]
    exact stage''

/-! ## Closing -/

/-- Settling closes the open sink, and the slots after it take no bytes and are settled as well. -/
lemma of_settle (settled : settle factory pending own s' = (.ok true, s'')) :
    ∃ own' s₁, factory.sink.close (own, s') = (.ok (), own', s₁) ∧
      match pending with
      | [] => s'' = s₁
      | next :: later => next.size = 0 ∧ ∃ own₂ s₂, factory.make next s₁ = (.ok own₂, s₂) ∧
          settle factory later own₂ s₂ = (.ok true, s'') := by
  cases closed : factory.sink.close (own, s') with
  | mk result state =>
    obtain ⟨own', s₁⟩ := state
    cases result with
    | error e =>
      have failed : settle factory pending own s' = (.error e, s₁) := by
        cases pending <;> rw [settle, closeSink, closed]
      cases failed.symm.trans settled
    | ok =>
      refine ⟨own', s₁, rfl, ?_⟩
      cases pending with
      | nil =>
        rw [settle, closeSink, closed] at settled
        cases settled
        rfl
      | cons next later =>
        rw [settle, closeSink, closed] at settled
        simp only [] at settled
        cases made : factory.make next s₁ with
        | mk result s₂ =>
          rw [made] at settled
          cases result with
          | error e => cases settled
          | ok own₂ =>
            by_cases empty : next.size = 0
            · exact ⟨empty, own₂, s₂, made, (if_pos empty).symm.trans settled⟩
            · cases (if_neg empty).symm.trans settled

/-- Closing tells that all is done after all slots were completed, the last ones without payload. -/
lemma completes_of_settle (fed : factory.Fed slot content s own s')
    (full : content.length = slot.size.toNat)
    (settled : settle factory pending own s' = (.ok true, s'')) :
    totalSize pending = 0 ∧ factory.Completes (slices (slot :: pending) content) s s'' := by
  rw [← List.append_nil content]
  induction pending generalizing slot content own s s' with
  | nil =>
    obtain ⟨own', s₁, closed, rfl⟩ := of_settle settled
    exact ⟨rfl, .cons_slices ⟨own, s', own', fed, closed⟩ full .nil⟩
  | cons next pending ih =>
    obtain ⟨own', s₁, closed, empty, own₂, s₂, made, settled⟩ := of_settle settled
    have size : next.size.toNat = 0 := by rw [empty]; rfl
    obtain ⟨none, completes⟩ := ih (.make made) size.symm settled
    refine ⟨?_, .cons_slices ⟨own, s', own', fed, closed⟩ full completes⟩
    rw [totalSize_cons, size, none]

/-- Only a splitter whose open sink is full, or that has no open sink and no slot left, can be
closed. -/
lemma of_close (closed : splitter.close factory s' = (.ok (), s'')) :
    (∃ pending own, splitter = ⟨pending, some own, 0⟩ ∧
      settle factory pending own s' = (.ok true, s'')) ∨
    (∃ remaining, splitter = ⟨[], none, remaining⟩ ∧ s'' = s') := by
  obtain ⟨pending, current, remaining⟩ := splitter
  cases current with
  | none =>
    cases pending with
    | nil =>
      cases closed
      exact .inr ⟨remaining, rfl, rfl⟩
    | cons next later => cases closed
  | some own =>
    cases remaining with
    | succ n => cases closed
    | zero =>
      refine .inl ⟨pending, own, rfl, ?_⟩
      cases settled : settle factory pending own s' with
      | mk result s₁ =>
        cases result with
        | error e => cases (MailM.bind_error settled).symm.trans closed
        | ok done =>
          have ended := (MailM.bind_ok settled).symm.trans closed
          cases done with
          | false => cases ended
          | true =>
            cases ended
            rfl

/-- If closing succeeds, everything was completed, or the last slot was given up. -/
lemma Stage.close_outcome (stage : Stage factory slots taken s splitter s')
    (closed : splitter.close factory s' = (.ok (), s'')) :
    (taken.length = totalSize slots ∧ factory.Completes (slices slots taken) s s'') ∨
      LastGivenUp factory slots taken s s'' := by
  induction stage with
  | finished =>
    cases closed
    exact .inl ⟨rfl, .nil⟩
  | @filling slot rest content s own s' fed room =>
    obtain ⟨_, _, same, settled⟩ | ⟨_, same, _⟩ := of_close closed
    · injection same with hp hs hr
      cases hp
      cases hs
      have full : content.length = slot.size.toNat := by omega
      obtain ⟨none, completes⟩ := completes_of_settle fed full settled
      refine .inl ⟨?_, completes⟩
      rw [totalSize_cons, none]
      exact full
    · cases same
  | @givenUp slot rest content s s' failed =>
    obtain ⟨_, _, same, _⟩ | ⟨_, same, rfl⟩ := of_close closed
    · cases same
    · cases same
      exact .inr ⟨[], slot, s, rfl, Nat.zero_le _, .nil, failed⟩
  | @filled slot rest content taken splitter s s₁ s' completed full _ ih =>
    obtain ⟨whole, completes⟩ | ⟨first, last, s₂, rfl, room, completes, failed⟩ := ih closed
    · refine .inl ⟨?_, .cons_slices completed full completes⟩
      rw [List.length_append, full, whole, totalSize_cons]
    · refine .inr ⟨slot :: first, last, s₂, rfl, ?_, .cons_slices completed full completes, ?_⟩
      · rw [totalSize_cons, List.length_append, full]
        exact Nat.add_le_add_left room _
      · rw [totalSize_cons, ← full, List.drop_length_add_append]
        exact failed

section Attempts

variable {pieces : List Bytes} {results : List (Except MailError Unit)} {s₁ s₂ : σ}

/-- A splitter that was started has taken nothing. -/
lemma stands_of_start (started : start factory slots s = (.ok splitter, s')) :
    Stands factory slots [] s splitter s' := by
  rcases start_outcome factory slots s with ⟨_, _, started', stands⟩ | ⟨_, _, started', _⟩
  · cases started.symm.trans started'
    exact stands
  · cases started.symm.trans started'

/-- As long as no write fails, going on behind failures makes no difference. -/
lemma Stands.delivers_of_attempts (stands : Stands factory slots [] s splitter s₁)
    (writes : MailM.attempts (Splitter.write factory) pieces (splitter, s₁) =
      (results, splitter', s₂))
    (succeed : ∀ result ∈ results, result = .ok ())
    (closed : splitter'.close factory s₂ = (.ok (), s')) :
    pieces.flatten.length = totalSize slots ∧
      factory.Delivers (slices slots pieces.flatten) s s' := by
  have run : pieces.forM (Splitter.write factory) (splitter, s₁) = (.ok (), _) :=
    MailM.forM_of_attempts (by rwa [writes])
  rw [writes] at run
  obtain ⟨_, _, _, run', ⟨_, stands'⟩ | ⟨_, _, _, rfl, _⟩⟩ := stands.forM_outcome pieces
  · cases run.symm.trans run'
    obtain ⟨_, _, closed', ends⟩ := stands'.close_ends
    cases closed.symm.trans closed'
    cases ends with
    | delivered whole delivers => exact ⟨whole, delivers⟩
  · cases run.symm.trans run'

/-- What a successful close tells, if pieces were also written behind writes that failed. If none
failed, every slot had its slice of the stream. Otherwise every slot was completed with its part of
what the sinks took of the pieces, or all slots but the last one were: that one was given up in a
write that failed, and closing does not find out. -/
theorem closed_after_attempts (started : start factory slots s = (.ok splitter, s₁))
    (writes : MailM.attempts (Splitter.write factory) pieces (splitter, s₁) =
      (results, splitter', s₂))
    (closed : splitter'.close factory s₂ = (.ok (), s')) :
    ((∀ result ∈ results, result = .ok ()) →
        pieces.flatten.length = totalSize slots ∧
          factory.Delivers (slices slots pieces.flatten) s s') ∧
      ∃ parts, List.Forall₂ Routed parts (pieces.zip results) ∧
        ((parts.flatten.length = totalSize slots ∧
            factory.Completes (slices slots parts.flatten) s s') ∨
          (∃ e, .error e ∈ results) ∧ LastGivenUp factory slots parts.flatten s s') := by
  have stands := stands_of_start started
  refine ⟨fun succeed => stands.delivers_of_attempts writes succeed closed, ?_⟩
  by_cases failed : ∃ e, .error e ∈ results
  · obtain ⟨parts, routed, stage⟩ := stands.stage.attempts pieces
    rw [writes] at routed stage
    exact ⟨parts, routed, (stage.close_outcome closed).imp_right fun givenUp => ⟨failed, givenUp⟩⟩
  · have succeed : ∀ result ∈ results, result = .ok () := fun result mem => by
      cases result with
      | error e => exact absurd ⟨e, mem⟩ failed
      | ok => rfl
    obtain ⟨whole, delivers⟩ := stands.delivers_of_attempts writes succeed closed
    have counted := MailM.length_attempts (Splitter.write factory) pieces (splitter, s₁)
    rw [writes] at counted
    exact ⟨pieces, Routed.forall₂_all counted.ge, .inl ⟨whole, delivers.completes⟩⟩

end Attempts

/-- A sink that refuses a byte takes the next one, and is closed: its slot is completed with the byte
that was taken, and not given up. -/
theorem closed_after_attempts_refused :
    let factory := SinkFactory.recording fun event => event = .write 0 [7]
    ∃ splitter s₁ e splitter' s₂ s',
      start factory [⟨0, 1, ""⟩] [] = (.ok splitter, s₁) ∧
      MailM.attempts (Splitter.write factory) [[7], [8]] (splitter, s₁) =
        ([.error e, .ok ()], splitter', s₂) ∧
      splitter'.close factory s₂ = (.ok (), s') ∧
      ∃ parts, List.Forall₂ Routed parts ([[7], [8]].zip [.error e, .ok ()]) ∧
        parts.flatten = [8] ∧ factory.Completes [(⟨0, 1, ""⟩, [8])] [] s' := by
  intro factory
  have started : start factory [⟨0, 1, ""⟩] [] = (.ok _, _) := rfl
  obtain ⟨-, parts, routed, ends⟩ := closed_after_attempts started
    (show MailM.attempts (Splitter.write factory) [[7], [8]] _ = (_, _, _) from rfl) rfl
  refine ⟨_, _, _, _, _, _, rfl, rfl, rfl, parts, routed, ?_⟩
  cases routed with
  | @cons first _ _ _ _ later =>
    cases later with
    | @cons second _ _ _ taken last =>
      cases last
      obtain rfl : second = [8] := taken.2 rfl
      rcases ends with ⟨whole, completes⟩ | ⟨_, _, _, _, _, _, _, givenUp⟩
      · -- with the byte that was taken there is no room for the one that was refused
        have bytes : [first, [8]].flatten = first ++ [8] := by
          rw [List.flatten_cons, List.flatten_singleton]
        rw [bytes] at whole completes ⊢
        rw [List.length_append] at whole
        obtain rfl : first = [] := List.length_eq_zero_iff.mp (Nat.succ.inj whole)
        exact ⟨rfl, completes⟩
      · -- this factory fails at nothing but a write
        generalize List.drop _ _ = content at givenUp
        cases givenUp with
        | make made => cases made
        | close _ _ closed => cases closed

/-- The sink of the last slot is never made, the splitter is closed all the same, and nothing that
is done to sinks completes both slots. -/
theorem closed_without_last :
    let factory := SinkFactory.recording fun event => event = .make ⟨1, 5, ""⟩
    ∃ splitter s₁ results splitter' s₂ s',
      start factory [⟨0, 1, ""⟩, ⟨1, 5, ""⟩] [] = (.ok splitter, s₁) ∧
      MailM.attempts (Splitter.write factory) [[7]] (splitter, s₁) = (results, splitter', s₂) ∧
      splitter'.close factory s₂ = (.ok (), s') ∧
      ∀ first second, ¬ factory.Completes [(⟨0, 1, ""⟩, first), (⟨1, 5, ""⟩, second)] [] s' := by
  intro factory
  refine ⟨_, _, _, _, _, _, rfl, rfl, rfl, fun first second completes => ?_⟩
  cases completes with
  | cons _ later =>
    cases later with
    | cons completed _ =>
      obtain ⟨_, _, _, fed, _⟩ := completed
      obtain ⟨own, s'', made⟩ := fed.made
      cases made

end Splitter

end SealedMail
