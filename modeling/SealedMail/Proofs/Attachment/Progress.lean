import SealedMail.Proofs.Attachment.Aftermath
import SealedMail.Proofs.Attachment.Bounds

/-!
# How a splitter gets on

Writing and closing go in rounds. In a round of writing (`Splitter.writeRound`) the open sink takes
the bytes it has room for, and if it is full then it is closed and the sink of the next slot is
made; a round of closing (`Splitter.closeRound`) does the latter only. A round may take no byte, and
it may find no slot that is left. What gets less in every round (`Splitter.Progress`) is the number
of bytes, of slots that are left and of open sinks together, `Splitter.load`: so the rounds end.

A round takes from the bytes that are still expected those that it hands to a sink, and no others.
So after any number of pieces the bytes that are expected and the ones that the sinks were handed
are as many as the slots take together (`Splitter.balanced_in_rounds`).
-/

namespace SealedMail

/-! ## Loops -/

/-- A loop and the number of its rounds that succeeded: it goes on as long as its state asks for it
and no round fails. -/
inductive MailM.Loops {α : Type} (goesOn : α → Prop) (round : MailM α Unit) :
    Nat → α → Except MailError Unit → α → Prop where
  | ended {a} :
    ¬goesOn a →
    Loops goesOn round 0 a (.ok ()) a
  | failed {a e a'} :
    goesOn a →
    round a = (.error e, a') →
    Loops goesOn round 0 a (.error e) a'
  | more {n a a' result a''} :
    goesOn a →
    round a = (.ok (), a') →
    Loops goesOn round n a' result a'' →
    Loops goesOn round (n + 1) a result a''

/-- A loop ends if something gets less in every round. -/
lemma MailM.exists_loops {α : Type} {goesOn : α → Prop} {round : MailM α Unit} (load : α → Nat)
    (less : ∀ {a a'}, goesOn a → round a = (.ok (), a') → load a' < load a) (a : α) :
    ∃ n result a', Loops goesOn round n a result a' ∧ n ≤ load a := by
  induction h : load a using Nat.strongRecOn generalizing a with
  | ind m ih =>
    by_cases more : goesOn a
    · cases ran : round a with
      | mk result a' =>
        cases result with
        | error e => exact ⟨0, _, _, .failed more ran, Nat.zero_le _⟩
        | ok =>
          have lighter := less more ran
          obtain ⟨n, result, a'', loops, bound⟩ := ih (load a') (h ▸ lighter) a' rfl
          exact ⟨n + 1, result, a'', .more more ran loops, by omega⟩
    · exact ⟨0, _, _, .ended more, Nat.zero_le _⟩

open MailM (Loops exists_loops)

namespace Splitter

variable {σ κ : Type} (factory : SinkFactory σ κ)

/-! ## Rounds -/

/-- Closes the open sink, if there is one. -/
def closeCurrent : MailM (Splitter κ × σ) Unit := fun (splitter, s) =>
  match splitter.current with
  | none => (.ok (), splitter, s)
  | some sink =>
    let (result, s) := closeSink factory sink s
    (result, { splitter with current := none }, s)

/-- Makes the sink of the next slot, if there is one. -/
def openNext : MailM (Splitter κ × σ) Unit := fun (splitter, s) =>
  match splitter.pending with
  | [] => (.ok (), splitter, s)
  | slot :: pending =>
    match factory.make slot s with
    | (.error e, s) => (.error e, { splitter with pending := pending }, s)
    | (.ok sink, s) => (.ok (), ⟨pending, some sink, slot.size.toNat⟩, s)

/-- A round of closing. -/
def closeRound : MailM (Splitter κ × σ) Unit := do
  closeCurrent factory
  openNext factory

/-- A round of writing, which leaves the bytes that the open sink has no room for. -/
def writeRound : MailM (Bytes × Splitter κ × σ) Unit := fun (b, splitter, s) =>
  match splitter.current with
  | none => (.error (.integrity .streamTooLong), b, splitter, s)
  | some sink =>
    let n := min b.length splitter.remaining
    match writeSome factory sink (b.take n) s with
    | (.error e, sink, s) => (.error e, b, { splitter with current := some sink }, s)
    | (.ok (), sink, s) =>
      let splitter := ⟨splitter.pending, some sink, splitter.remaining - n⟩
      if splitter.remaining = 0 then
        let closed := closeRound factory (splitter, s)
        (closed.1, b.drop n, closed.2)
      else (.ok (), b.drop n, splitter, s)

/-- The open sink takes no more bytes. -/
def IsFull (splitter : Splitter κ) : Prop := splitter.current.isSome ∧ splitter.remaining = 0

/-- The bytes, the slots that are left, and the open sink. -/
def load (b : Bytes) (splitter : Splitter κ) : Nat :=
  b.length + splitter.pending.length + if splitter.current.isSome then 1 else 0

/-- What a round makes of bytes and a splitter. -/
structure Progress (b : Bytes) (splitter : Splitter κ) (rest : Bytes) (splitter' : Splitter κ) :
    Prop where
  less : load rest splitter' < load b splitter
  taken : ∃ part, b = part ++ rest ∧ part.length ≤ splitter.remaining ∧
    splitter'.bytesExpected + part.length = splitter.bytesExpected
  idle : splitter'.current = none → splitter'.remaining = 0

variable {factory} {slots pending : List Slot} {pieces : List Bytes} {b part rest : Bytes} {own : κ}
  {remaining : Nat} {splitter splitter' : Splitter κ} {s s' s₁ s₂ : σ}

/-! ## What a round makes -/

/-- The bytes that are expected are those of the open slot and of the pending ones. -/
lemma bytesExpected_eq (splitter : Splitter κ) :
    splitter.bytesExpected = splitter.remaining + totalSize splitter.pending := by
  obtain ⟨pending, current, remaining⟩ := splitter
  simp only [bytesExpected]
  induction pending generalizing remaining with
  | nil => rfl
  | cons slot pending ih => rw [List.foldl_cons, ih, totalSize_cons, Nat.add_assoc]

/-- A round of closing closes the open sink and goes on to the next slot. -/
lemma closeRound_of_some :
    closeRound factory (⟨pending, some own, remaining⟩, s) =
      match closeSink factory own s with
      | (.error e, s) => (.error e, ⟨pending, none, remaining⟩, s)
      | (.ok (), s) => openNext factory (⟨pending, none, remaining⟩, s) := by
  have current : closeCurrent factory (⟨pending, some own, remaining⟩, s) =
      ((closeSink factory own s).1, ⟨pending, none, remaining⟩, (closeSink factory own s).2) := rfl
  cases ran : closeSink factory own s with
  | mk result s₁ =>
    rw [ran] at current
    cases result with
    | error e => exact MailM.bind_error current
    | ok => exact MailM.bind_ok current

/-- After a round of closing there is no slot left, or the sink of the next one is open. -/
lemma of_closeRound
    (closed : closeRound factory (⟨pending, some own, remaining⟩, s) = (.ok (), splitter', s')) :
    (pending = [] ∧ splitter' = ⟨[], none, remaining⟩) ∨
      ∃ slot later own', pending = slot :: later ∧
        splitter' = ⟨later, some own', slot.size.toNat⟩ := by
  rw [closeRound_of_some] at closed
  split at closed
  · cases closed
  · cases pending with
    | nil =>
      cases closed
      exact .inl ⟨rfl, rfl⟩
    | cons slot later =>
      simp only [openNext] at closed
      split at closed
      · cases closed
      · cases closed
        exact .inr ⟨slot, later, _, rfl, rfl⟩

/-- A round of writing ends with bytes that do not fill the open sink. -/
lemma writeRound_of_lt (room : b.length < remaining) :
    writeRound factory (b, ⟨pending, some own, remaining⟩, s) =
      match writeSome factory own b s with
      | (.error e, own, s) => (.error e, b, ⟨pending, some own, remaining⟩, s)
      | (.ok (), own, s) => (.ok (), [], ⟨pending, some own, remaining - b.length⟩, s) := by
  have more : remaining - b.length ≠ 0 := by omega
  simp only [writeRound, min_eq_left room.le, List.take_length, List.drop_length, if_neg more]

/-- A round of writing fills the open sink, closes it and goes on to the next slot. -/
lemma writeRound_of_append (part rest : Bytes) :
    writeRound factory (part ++ rest, ⟨pending, some own, part.length⟩, s) =
      match writeSome factory own part s with
      | (.error e, own, s) => (.error e, part ++ rest, ⟨pending, some own, part.length⟩, s)
      | (.ok (), own, s) =>
        let closed := closeRound factory (⟨pending, some own, 0⟩, s)
        (closed.1, rest, closed.2) := by
  have taken : min (part ++ rest).length part.length = part.length := by
    rw [List.length_append]
    omega
  simp only [writeRound, taken, List.take_left, List.drop_left, Nat.sub_self, if_true]

/-- The open sink has taken the last bytes it had room for, and is closed. -/
lemma progress_of_closeRound (part rest : Bytes) (sink : κ)
    (closed : closeRound factory (⟨pending, some own, 0⟩, s) = (.ok (), splitter', s')) :
    Progress (part ++ rest) ⟨pending, some sink, part.length⟩ rest splitter' := by
  obtain ⟨rfl, rfl⟩ | ⟨slot, later, own', rfl, rfl⟩ := of_closeRound closed
  · refine ⟨?_, ⟨part, rfl, Nat.le_refl _, ?_⟩, fun _ => rfl⟩
    · simp only [load, List.length_append, List.length_nil, Option.isSome_some, if_true,
        Option.isSome_none, Bool.false_eq_true, if_false]
      omega
    · simp only [bytesExpected_eq, totalSize_nil]
      omega
  · refine ⟨?_, ⟨part, rfl, Nat.le_refl _, ?_⟩, nofun⟩
    · simp only [load, List.length_append, List.length_cons, Option.isSome_some, if_true]
      omega
    · simp only [bytesExpected_eq, totalSize_cons]
      omega

/-- The open sink has taken all bytes, and has room for more. -/
lemma progress_of_lt (nonempty : b ≠ []) (room : b.length < remaining) (sink sink' : κ) :
    Progress b ⟨pending, some sink, remaining⟩ [] ⟨pending, some sink', remaining - b.length⟩ := by
  have bytes := List.length_pos_iff.mpr nonempty
  refine ⟨?_, ⟨b, (List.append_nil b).symm, room.le, ?_⟩, nofun⟩
  · simp only [load, List.length_nil, Option.isSome_some, if_true]
    omega
  · simp only [bytesExpected_eq]
    omega

/-- Each round of writing makes progress. -/
lemma progress_of_writeRound (nonempty : b ≠ [])
    (written : writeRound factory (b, splitter, s) = (.ok (), rest, splitter', s')) :
    Progress b splitter rest splitter' := by
  obtain ⟨pending, current, remaining⟩ := splitter
  cases current with
  | none => cases written
  | some sink =>
    obtain room | ⟨part, later, rfl, rfl⟩ := room_cases b remaining
    · rw [writeRound_of_lt room] at written
      split at written
      · cases written
      · cases written
        exact progress_of_lt nonempty room sink _
    · rw [writeRound_of_append] at written
      split at written
      · cases written
      next own s₁ _ =>
        cases closed : closeRound factory (⟨pending, some own, 0⟩, s₁) with
        | mk result state =>
          rw [closed] at written
          cases written
          exact progress_of_closeRound part rest sink closed

/-! ## The loops -/

/-- Behind a full sink, writing goes on with the next one. -/
lemma fillOn_eq (rest : Bytes) (s : σ) (pending : List Slot) :
    fillOn factory rest s pending =
      match openNext factory (⟨pending, none, 0⟩, s) with
      | (.error e, splitter, s) => (.error e, splitter, s)
      | (.ok (), splitter, s) => write factory rest (splitter, s) := by
  cases pending with
  | nil =>
    simp only [fillOn, openNext, write]
    split <;> rfl
  | cons slot pending =>
    simp only [fillOn, openNext]
    cases factory.make slot s with
    | mk result s₁ =>
      cases result with
      | error e => rfl
      | ok sink => rfl

/-- Where a full sink is closed, writing goes on behind it. -/
lemma fill_of_close (rest : Bytes) (own : κ) (s : σ) (pending : List Slot) :
    ((match closeSink factory own s with
      | (.error e, s) => (.error e, ⟨pending, none, 0⟩, s)
      | (.ok (), s) => fillOn factory rest s pending) : Except MailError Unit × Splitter κ × σ) =
      match closeRound factory (⟨pending, some own, 0⟩, s) with
      | (.error e, splitter, s) => (.error e, splitter, s)
      | (.ok (), splitter, s) => write factory rest (splitter, s) := by
  rw [closeRound_of_some]
  cases closeSink factory own s with
  | mk result s₁ =>
    cases result with
    | error e => rfl
    | ok => exact fillOn_eq rest s₁ pending

/-- Writing bytes is a round, and writing what it leaves. -/
lemma write_eq (nonempty : b ≠ []) :
    write factory b (splitter, s) =
      match writeRound factory (b, splitter, s) with
      | (.error e, _, splitter, s) => (.error e, splitter, s)
      | (.ok (), rest, splitter, s) => write factory rest (splitter, s) := by
  obtain ⟨pending, current, remaining⟩ := splitter
  rw [write, if_neg (mt List.isEmpty_iff.mp nonempty)]
  cases current with
  | none => rfl
  | some sink =>
    simp only []
    obtain room | ⟨part, rest, rfl, rfl⟩ := room_cases b remaining
    · rw [fill_eq, if_pos room, writeRound_of_lt room]
      cases writeSome factory sink b s with
      | mk result state =>
        cases result with
        | error e => rfl
        | ok => rfl
    · rw [fill_append, writeRound_of_append]
      cases writeSome factory sink part s with
      | mk result state =>
        obtain ⟨own, s₁⟩ := state
        cases result with
        | error e => rfl
        | ok =>
          refine (fill_of_close rest own s₁ pending).trans ?_
          simp only []
          cases closeRound factory (⟨pending, some own, 0⟩, s₁) with
          | mk result state =>
            cases result with
            | error e => rfl
            | ok => rfl

/-- What closing tells after its rounds. -/
def verdict (splitter : Splitter κ) : Except MailError Unit :=
  if splitter.current.isSome || !splitter.pending.isEmpty then .error (.integrity .streamTooShort)
  else .ok ()

/-- Without a full sink, closing only tells whether everything came. -/
lemma close_of_not_full (more : ¬IsFull splitter) :
    splitter.close factory s = (splitter.verdict, s) := by
  obtain ⟨pending, _ | sink, remaining⟩ := splitter
  · cases pending with
    | nil => rfl
    | cons slot pending => rfl
  · cases remaining with
    | zero => exact absurd ⟨rfl, rfl⟩ more
    | succ n => rfl

/-- A full sink is settled, and closing tells whether everything came. -/
lemma close_of_full :
    close factory ⟨pending, some own, 0⟩ s =
      match settle factory pending own s with
      | (.error e, s) => (.error e, s)
      | (.ok isComplete, s) =>
        (if isComplete then .ok () else .error (.integrity .streamTooShort), s) := by
  cases settled : settle factory pending own s with
  | mk result s₁ =>
    cases result with
    | error e => exact MailM.bind_error settled
    | ok isComplete =>
      refine (MailM.bind_ok settled).trans ?_
      cases isComplete with
      | false => rfl
      | true => rfl

/-- As long as the open sink is full, closing is a round, and closing what it makes of the
splitter. -/
lemma close_eq (full : IsFull splitter) :
    splitter.close factory s =
      match closeRound factory (splitter, s) with
      | (.error e, _, s) => (.error e, s)
      | (.ok (), splitter, s) => splitter.close factory s := by
  obtain ⟨pending, _ | sink, remaining⟩ := splitter
  · cases full.1
  obtain rfl : remaining = 0 := full.2
  rw [close_of_full, closeRound_of_some]
  cases pending with
  | nil =>
    rw [settle]
    cases closeSink factory sink s with
    | mk result s₁ =>
      cases result with
      | error e => rfl
      | ok => rfl
  | cons slot pending =>
    rw [settle]
    cases closeSink factory sink s with
    | mk result s₁ =>
      cases result with
      | error e => rfl
      | ok =>
        simp only [openNext]
        cases factory.make slot s₁ with
        | mk result s₂ =>
          cases result with
          | error e => rfl
          | ok own =>
            by_cases empty : slot.size = 0
            · have size : slot.size.toNat = 0 := by rw [empty]; rfl
              simp only [if_pos empty, size, close_of_full]
            · have size : slot.size.toNat ≠ 0 := fun zero => empty (UInt32.toNat_inj.mp zero)
              have more : ¬IsFull (⟨pending, some own, slot.size.toNat⟩ : Splitter κ) :=
                fun full => size full.2
              simp only [if_neg empty, close_of_not_full more]
              rfl

/-! ## The bytes that are expected -/

/-- What came and what is expected are together what the slots take. -/
lemma Stands.bytesExpected (stands : Stands factory slots part s splitter s') :
    splitter.bytesExpected + part.length = totalSize slots := by
  induction stands with
  | finished => rfl
  | filling _ room =>
    simp only [bytesExpected_eq, totalSize_cons]
    omega
  | filled _ full _ ih =>
    rw [List.length_append, totalSize_cons]
    omega

/-- Without an open sink nothing is expected for one. -/
lemma Stands.idle (stands : Stands factory slots part s splitter s')
    (closed : splitter.current = none) : splitter.remaining = 0 := by
  induction stands with
  | finished => rfl
  | filling => cases closed
  | filled _ _ _ ih => exact ih closed

/-- The sinks were handed what was taken. -/
lemma Stands.handed {t t' : List (Slot × Bytes) × σ} {splitter : Splitter (Nat × κ)}
    (stands : Stands factory.metered slots part t splitter t') :
    t'.1.flatMap Prod.snd = t.1.flatMap Prod.snd ++ part := by
  induction stands with
  | finished => exact (List.append_nil _).symm
  | filling begun => rw [begun.metered.2, List.flatMap_append, List.flatMap_singleton]
  | filled delivered _ _ ih =>
    obtain ⟨_, t₁, _, begun, closed⟩ := delivered
    rw [ih, SinkFactory.of_close_metered closed, begun.metered.2, List.flatMap_append,
      List.flatMap_singleton, List.append_assoc]

variable (factory) in
/-- What the sinks were handed when a splitter was made and these pieces were written to it: for
each sink its slot and the bytes, also those that it refused. -/
def handed (slots : List Slot) (pieces : List Bytes) (s : σ) : List (Slot × Bytes) :=
  match start factory.metered slots ([], s) with
  | (.error _, meter, _) => meter
  | (.ok splitter, t) => (pieces.forM (write factory.metered) (splitter, t)).2.2.1

/-- As long as no call fails, the sinks are handed the pieces. -/
lemma flatMap_handed (started : start factory slots s = (.ok splitter, s₁))
    (written : pieces.forM (write factory) (splitter, s₁) = (.ok (), splitter', s₂)) :
    (handed factory slots pieces s).flatMap Prod.snd = pieces.flatten := by
  have covers : factory.metered.Covers factory Prod.snd Prod.snd := SinkFactory.metered_covers
  have same := covers.start slots ([], s)
  rw [started] at same
  rw [handed]
  cases started' : start factory.metered slots ([], s) with
  | mk result t =>
    rw [started'] at same
    cases result with
    | error e => cases same
    | ok first =>
      cases same
      cases ran : pieces.forM (write factory.metered) (first, t) with
      | mk result state =>
        obtain ⟨last, t'⟩ := state
        have same : _ = (result, last.map Prod.snd, t'.2) :=
          MailM.Follows.forM covers.write pieces _ _ _ ran
        cases written.symm.trans same
        have stands := (stands_of_start started').of_forM ran
        simp only [ran]
        exact stands.handed

/-! ## Writing and closing as loops -/

/-- There are bytes that no sink was handed. -/
def HasBytes (state : Bytes × Splitter κ × σ) : Prop := state.1 ≠ []

/-- The rounds of writing come to what writing does. -/
lemma write_of_loops {n : Nat} {state state' : Bytes × Splitter κ × σ}
    {result : Except MailError Unit}
    (loops : Loops HasBytes (writeRound factory) n state result state') :
    write factory state.1 state.2 = (result, state'.2) := by
  induction loops with
  | @ended state done =>
    rw [not_not.mp done]
    rfl
  | failed nonempty failed => rw [write_eq nonempty, failed]
  | more nonempty ran _ ih => rw [write_eq nonempty, ran, ← ih]

/-- The rounds of closing come to what closing does. -/
lemma close_of_loops {n : Nat} {state state' : Splitter κ × σ} {result : Except MailError Unit}
    (loops : Loops (fun state => state.1.IsFull) (closeRound factory) n state result state') :
    state.1.close factory state.2 = (result.bind fun _ => state'.1.verdict, state'.2) := by
  induction loops with
  | ended done => exact close_of_not_full done
  | failed full failed =>
    rw [close_eq full, failed]
    rfl
  | more full ran _ ih => rw [close_eq full, ran, ← ih]

/-- Writing is a loop of rounds, of which there are not more than the load. -/
lemma exists_write_loops (b : Bytes) (splitter : Splitter κ) (s : σ) :
    ∃ n rest result splitter' s',
      Loops HasBytes (writeRound factory) n (b, splitter, s) result (rest, splitter', s') ∧
        n ≤ load b splitter ∧ write factory b (splitter, s) = (result, splitter', s') := by
  have less {state state' : Bytes × Splitter κ × σ} (nonempty : HasBytes state)
      (ran : writeRound factory state = (.ok (), state')) :
      load state'.1 state'.2.1 < load state.1 state.2.1 :=
    (progress_of_writeRound nonempty ran).less
  obtain ⟨n, result, ⟨rest, splitter', s'⟩, loops, bound⟩ :=
    exists_loops (fun state => load state.1 state.2.1) less (b, splitter, s)
  exact ⟨n, rest, result, splitter', s', loops, bound, write_of_loops loops⟩

/-- Each round of closing makes progress. -/
lemma progress_of_full (full : IsFull splitter)
    (closed : closeRound factory (splitter, s) = (.ok (), splitter', s')) :
    Progress [] splitter [] splitter' := by
  obtain ⟨pending, _ | sink, remaining⟩ := splitter
  · cases full.1
  · obtain rfl : remaining = 0 := full.2
    exact progress_of_closeRound [] [] sink closed

/-- Closing is a loop of rounds, of which there are not more than the load, with the verdict at its
end. -/
lemma exists_close_loops (splitter : Splitter κ) (s : σ) :
    ∃ n result splitter' s',
      Loops (fun state => state.1.IsFull) (closeRound factory) n (splitter, s) result
          (splitter', s') ∧
        n ≤ load [] splitter ∧
        splitter.close factory s = (result.bind fun _ => splitter'.verdict, s') := by
  have less {state state' : Splitter κ × σ} (full : state.1.IsFull)
      (ran : closeRound factory state = (.ok (), state')) :
      load [] state'.1 < load [] state.1 := (progress_of_full full ran).less
  obtain ⟨n, result, ⟨splitter', s'⟩, loops, bound⟩ :=
    exists_loops (fun state => load [] state.1) less (splitter, s)
  exact ⟨n, result, splitter', s', loops, bound, close_of_loops loops⟩

/-- Writing and closing go in rounds that come to an end, and every round hands out some of the
bytes that are expected. So as long as no call fails, the bytes that are still expected and those
that the sinks were handed are as many as the slots take together. -/
theorem balanced_in_rounds (factory : SinkFactory σ κ) :
    (∀ slots pieces s splitter s₁ splitter' s₂,
      start factory slots s = (.ok splitter, s₁) →
      pieces.forM (write factory) (splitter, s₁) = (.ok (), splitter', s₂) →
      (handed factory slots pieces s).flatMap Prod.snd = pieces.flatten ∧
        splitter'.bytesExpected + pieces.flatten.length = totalSize slots ∧
        (splitter'.current = none → splitter'.remaining = 0)) ∧
    (∀ b splitter s rest splitter' s', b ≠ [] →
      writeRound factory (b, splitter, s) = (.ok (), rest, splitter', s') →
      Progress b splitter rest splitter') ∧
    (∀ (splitter : Splitter κ) s splitter' s', splitter.IsFull →
      closeRound factory (splitter, s) = (.ok (), splitter', s') →
      Progress [] splitter [] splitter') ∧
    (∀ b splitter s, ∃ n rest result splitter' s',
      Loops HasBytes (writeRound factory) n (b, splitter, s) result (rest, splitter', s') ∧
        n ≤ load b splitter ∧ write factory b (splitter, s) = (result, splitter', s')) ∧
    ∀ splitter s, ∃ n result splitter' s',
      Loops (fun state => state.1.IsFull) (closeRound factory) n (splitter, s) result
          (splitter', s') ∧
        n ≤ load [] splitter ∧
        splitter.close factory s = (result.bind fun _ => splitter'.verdict, s') := by
  refine ⟨?_, ?_, ?_, exists_write_loops, exists_close_loops⟩
  · intro slots pieces s splitter s₁ splitter' s₂ started written
    have stands := (stands_of_start started).of_forM written
    exact ⟨flatMap_handed started written, stands.bytesExpected, stands.idle⟩
  · exact fun _ _ _ _ _ _ nonempty written => progress_of_writeRound nonempty written
  · exact fun _ _ _ _ full closed => progress_of_full full closed

/-- A slot without payload comes first and another one last. -/
theorem balanced_in_rounds_empty_slots :
    let factory := SinkFactory.recording fun _ => false
    let slots : List Slot := [⟨0, 0, ""⟩, ⟨1, 2, ""⟩, ⟨2, 0, ""⟩]
    ∃ splitter s₁ splitter' s₂,
      start factory slots [] = (.ok splitter, s₁) ∧
      [[7], [8]].forM (write factory) (splitter, s₁) = (.ok (), splitter', s₂) ∧
      (handed factory slots [[7], [8]] []).flatMap Prod.snd = [7, 8] ∧
      splitter'.bytesExpected + 2 = totalSize slots := by
  intro factory slots
  obtain ⟨handed, expected, _⟩ :=
    (balanced_in_rounds factory).1 slots [[7], [8]] [] _ _ _ _ rfl rfl
  exact ⟨_, _, _, _, rfl, rfl, handed, expected⟩

end Splitter

end SealedMail
