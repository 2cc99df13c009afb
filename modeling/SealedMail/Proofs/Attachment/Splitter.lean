import SealedMail.Attachment.Trace
import SealedMail.Proofs.Attachment.Delivery

/-!
# What the splitter delivers

The outcome of splitting is a function of the stream, however the stream comes in pieces.

The invariant is `Splitter.Stands`: after a part of the stream, the slots whose slices are full were
delivered, and the next one has an open sink with what there is of its slice. A slot without payload
can be the one with the open sink, since it is closed only later. A piece keeps the invariant, unless
the stream is too long or a sink refuses a call: then nothing more happens to any sink
(`Splitter.Stops`, `Stands.write_outcome`). Closing delivers what is left, or fails with an open sink
(`Splitter.CutShort`, `Stands.close_ends`).

`Splitter.run` is a whole run, up to the first call that fails. `run_ends` tells how it ends, whatever
the sinks are and whatever they refuse, and `Splitter.splitting_outcome` which call is the one that
fails and what was delivered by then, where the sinks never fail.
-/

namespace SealedMail.Splitter

open SinkFactory

variable {σ κ : Type} {factory : SinkFactory σ κ}

/-! ## The invariant -/

/-- After a part of the stream, full slots were delivered and the next one has an open sink. -/
inductive Stands (factory : SinkFactory σ κ) :
    List Slot → Bytes → σ → Splitter κ → σ → Prop where
  | finished {s} : Stands factory [] [] s ⟨[], none, 0⟩ s
  | filling {slot rest pieces s own s'} :
    factory.Begun slot pieces s own s' →
    pieces.flatten.length ≤ slot.size.toNat →
    Stands factory (slot :: rest) pieces.flatten s
      ⟨rest, some own, slot.size.toNat - pieces.flatten.length⟩ s'
  | filled {slot rest pieces part splitter s s' s''} :
    factory.Delivered slot pieces s s' →
    pieces.flatten.length = slot.size.toNat →
    Stands factory rest part s' splitter s'' →
    Stands factory (slot :: rest) (pieces.flatten ++ part) s splitter s''

/-- The stream ended with the sink of a slot open that still takes bytes; the slots before it were
delivered, and no other sink was made. -/
inductive CutShort (factory : SinkFactory σ κ) : List Slot → Bytes → σ → σ → Prop where
  | filling {slot rest pieces s own s'} :
    factory.Begun slot pieces s own s' →
    pieces.flatten.length < slot.size.toNat →
    CutShort factory (slot :: rest) pieces.flatten s s'
  | filled {slot rest pieces part s s' s''} :
    factory.Delivered slot pieces s s' →
    pieces.flatten.length = slot.size.toNat →
    CutShort factory rest part s' s'' →
    CutShort factory (slot :: rest) (pieces.flatten ++ part) s s''

/-- A run failed in the middle of a stream that begins with the given part: a byte came after all
slots were full, or a call about the next slot was refused. The slots before were delivered, and
nothing was done to any sink after that call. -/
inductive Stops (factory : SinkFactory σ κ) : List Slot → Bytes → MailError → σ → σ → Prop where
  | tooLong {part s} :
    part ≠ [] →
    Stops factory [] part (.integrity .streamTooLong) s s
  | refused {slot rest part e s s'} :
    factory.Refuses slot (part.take slot.size.toNat) e s s' →
    Stops factory (slot :: rest) part e s s'
  | filled {slot rest pieces part e s s' s''} :
    factory.Delivered slot pieces s s' →
    pieces.flatten.length = slot.size.toNat →
    Stops factory rest part e s' s'' →
    Stops factory (slot :: rest) (pieces.flatten ++ part) e s s''

/-- How a whole run over a stream ended. -/
inductive Ends (factory : SinkFactory σ κ) (slots : List Slot) (stream : Bytes) (s : σ) :
    Except MailError Unit → σ → Prop where
  | delivered {s'} :
    stream.length = totalSize slots →
    factory.Delivers (slices slots stream) s s' →
    Ends factory slots stream s (.ok ()) s'
  | cutShort {s'} :
    stream.length < totalSize slots →
    CutShort factory slots stream s s' →
    Ends factory slots stream s (.error (.integrity .streamTooShort)) s'
  | stopped {part e s'} :
    part <+: stream →
    Stops factory slots part e s s' →
    Ends factory slots stream s (.error e) s'

/-- What a call has made of a splitter that came so far: it stands further on, or the run stops. -/
def Outcome (factory : SinkFactory σ κ) (slots : List Slot) (part : Bytes) (s : σ) :
    Except MailError Unit × Splitter κ × σ → Prop
  | (.ok (), splitter, s') => Stands factory slots part s splitter s'
  | (.error e, _, s') => Stops factory slots part e s s'

variable {slot : Slot} {slots pending : List Slot} {pieces : List Bytes} {part b : Bytes}
  {own own' : κ} {splitter splitter' : Splitter κ} {s s' s'' : σ} {e : MailError}

/-- Not more was taken than all slots take. -/
lemma Stands.length_le (stands : Stands factory slots part s splitter s') :
    part.length ≤ totalSize slots := by
  induction stands with
  | finished => exact Nat.le_refl _
  | filling _ room =>
    rw [totalSize_cons]
    omega
  | filled _ full _ ih =>
    rw [List.length_append, full, totalSize_cons]
    exact Nat.add_le_add_left ih _

/-- The slots that were delivered, and the one with the open sink. -/
lemma CutShort.exists_open {stream : Bytes} (cutShort : CutShort factory slots stream s s') :
    ∃ full slot rest, slots = full ++ slot :: rest ∧
      totalSize full ≤ stream.length ∧ stream.length < totalSize full + slot.size.toNat ∧
      ∃ pieces own s'', factory.Delivers (slices full stream) s s'' ∧
        factory.Begun slot pieces s'' own s' ∧ pieces.flatten = stream.drop (totalSize full) := by
  induction cutShort with
  | @filling slot rest pieces s own s' begun room =>
    refine ⟨[], slot, rest, rfl, Nat.zero_le _, ?_, pieces, own, s, .nil, begun, rfl⟩
    rw [totalSize_nil, Nat.zero_add]
    exact room
  | @filled first _ pieces part s s₁ s' delivered size _ ih =>
    obtain ⟨full, slot, rest, rfl, ends, short, pieces', own, s'', delivers, begun, content⟩ := ih
    refine ⟨first :: full, slot, rest, rfl, ?_, ?_, pieces', own, s'', ?_, begun, ?_⟩
    · rw [totalSize_cons, List.length_append, size]
      exact Nat.add_le_add_left ends _
    · rw [totalSize_cons, List.length_append, size, Nat.add_assoc]
      exact Nat.add_lt_add_left short _
    · exact Delivers.cons_slices delivered size delivers
    · rw [content, totalSize_cons, ← size, List.drop_length_add_append]

/-- Where every slot accepts its slice, nothing but the length of the stream stops a run, and all
slices are delivered before. -/
lemma Stops.of_accepts {later : Bytes} (stops : Stops factory slots part e s s')
    (accepts : factory.AcceptsAll slots (part ++ later)) :
    e = .integrity .streamTooLong ∧ totalSize slots < part.length ∧
      factory.Delivers (slices slots part) s s' := by
  induction stops with
  | tooLong some => exact ⟨rfl, List.length_pos_iff.mpr some, .nil⟩
  | @refused slot rest part e s s' refuses =>
    have begins : part.take slot.size.toNat <+: (part ++ later).take slot.size.toNat :=
      List.prefix_take_iff.mpr
        ⟨(List.take_prefix _ _).trans (List.prefix_append _ _), List.length_take_le _ _⟩
    exact absurd refuses (accepts.head.not_refuses (List.length_take_le _ _) begins)
  | filled delivered full _ ih =>
    rw [List.append_assoc, acceptsAll_cons_append full] at accepts
    obtain ⟨tooLong, long, delivers⟩ := ih accepts.2
    refine ⟨tooLong, ?_, Delivers.cons_slices delivered full delivers⟩
    rw [List.length_append, full, totalSize_cons]
    exact Nat.add_lt_add_left long _

/-- What comes of the later slots comes of all of them, once the first one is delivered. -/
lemma Outcome.filled {outcome : Except MailError Unit × Splitter κ × σ}
    (later : Outcome factory pending part s' outcome)
    (delivered : factory.Delivered slot pieces s s')
    (full : pieces.flatten.length = slot.size.toNat) :
    Outcome factory (slot :: pending) (pieces.flatten ++ part) s outcome := by
  obtain ⟨result, splitter, s''⟩ := outcome
  cases result with
  | error e => exact Stops.filled delivered full later
  | ok => exact Stands.filled delivered full later

/-- How the later slots end is how all of them end, once the first one is delivered. -/
lemma Ends.filled {stream : Bytes} {result : Except MailError Unit}
    (later : Ends factory pending stream s' result s'')
    (delivered : factory.Delivered slot pieces s s')
    (full : pieces.flatten.length = slot.size.toNat) :
    Ends factory (slot :: pending) (pieces.flatten ++ stream) s result s'' := by
  have length : (pieces.flatten ++ stream).length = slot.size.toNat + stream.length := by
    rw [List.length_append, full]
  cases later with
  | delivered whole delivers =>
    refine .delivered ?_ (Delivers.cons_slices delivered full delivers)
    rw [length, whole, totalSize_cons]
  | cutShort short cutShort =>
    refine .cutShort ?_ (.filled delivered full cutShort)
    rw [length, totalSize_cons]
    exact Nat.add_lt_add_left short _
  | stopped begins stops =>
    exact .stopped ((List.prefix_append_right_inj _).mpr begins) (.filled delivered full stops)

/-! ## Single calls -/

/-- Bytes that were written belong to the payload, also if there are none. -/
lemma begun_of_writeSome (begun : factory.Begun slot pieces s own s')
    (written : writeSome factory own b s' = (.ok (), own', s'')) :
    ∃ pieces', factory.Begun slot pieces' s own' s'' ∧ pieces'.flatten = pieces.flatten ++ b := by
  cases b with
  | nil =>
    cases written
    exact ⟨pieces, begun, (List.append_nil _).symm⟩
  | cons x b =>
    refine ⟨pieces ++ [x :: b], .write begun written, ?_⟩
    rw [List.flatten_append, List.flatten_singleton]

/-- Writing fails only if there is something to write. -/
lemma write_of_writeSome (written : writeSome factory own b s' = (.error e, own', s'')) :
    factory.sink.write b (own, s') = (.error e, own', s'') := by
  cases b with
  | nil => cases written
  | cons x b => exact written

/-- The first slice of a stream is the payload at its front, if this has the size of the slot. -/
lemma take_flatten (full : pieces.flatten.length = slot.size.toNat) (later : Bytes) :
    (pieces.flatten ++ later).take slot.size.toNat = pieces.flatten := by
  rw [← full, List.take_left]

/-- A sink that is closed has its slot delivered, or the run stops. -/
lemma closeSink_outcome (begun : factory.Begun slot pieces s own s')
    (full : pieces.flatten.length = slot.size.toNat) :
    (∃ s'', closeSink factory own s' = (.ok (), s'') ∧ factory.Delivered slot pieces s s'') ∨
      ∃ e s'', closeSink factory own s' = (.error e, s'') ∧
        ∀ pending later, Stops factory (slot :: pending) (pieces.flatten ++ later) e s s'' := by
  rw [closeSink]
  cases closed : factory.sink.close (own, s') with
  | mk result rest =>
    obtain ⟨own', s''⟩ := rest
    cases result with
    | ok => exact .inl ⟨s'', rfl, own, s', own', begun, closed⟩
    | error e =>
      refine .inr ⟨e, s'', rfl, fun pending later => .refused ?_⟩
      rw [take_flatten full]
      exact .close begun rfl full closed

/-- A splitter that was made stands at the beginning, or its first sink could not be made. -/
lemma start_outcome (factory : SinkFactory σ κ) (slots : List Slot) (s : σ) :
    (∃ splitter s', start factory slots s = (.ok splitter, s') ∧
        Stands factory slots [] s splitter s') ∨
      ∃ e s', start factory slots s = (.error e, s') ∧ Stops factory slots [] e s s' := by
  cases slots with
  | nil => exact .inl ⟨_, s, rfl, .finished⟩
  | cons slot rest =>
    cases made : factory.make slot s with
    | mk result s' =>
      cases result with
      | error e => exact .inr ⟨e, s', MailM.bind_error made, .refused (.make made)⟩
      | ok own => exact .inl ⟨_, s', MailM.bind_ok made, .filling (.make made) (Nat.zero_le _)⟩

/-! ## One piece -/

/-- Bytes that do not fill the open sink go to it. -/
lemma fill_short (begun : factory.Begun slot pieces s own s')
    (short : b.length < slot.size.toNat - pieces.flatten.length) :
    Outcome factory (slot :: pending) (pieces.flatten ++ b) s
      (fill factory pending own (slot.size.toNat - pieces.flatten.length) b s') := by
  have room : (pieces.flatten ++ b).length ≤ slot.size.toNat := by
    rw [List.length_append]
    omega
  rw [fill, if_pos short]
  cases written : writeSome factory own b s' with
  | mk result rest =>
    obtain ⟨own', s''⟩ := rest
    cases result with
    | error e =>
      have beginning := List.prefix_take_iff.mpr ⟨List.prefix_refl _, room⟩
      exact Stops.refused (.write begun beginning (write_of_writeSome written))
    | ok =>
      obtain ⟨pieces', begun', whole⟩ := begun_of_writeSome begun written
      have stands : Stands factory (slot :: pending) _ s _ s'' := .filling begun' (whole ▸ room)
      rw [whole, List.length_append, ← Nat.sub_sub] at stands
      exact stands

/-- How filling goes on behind a slot that was delivered. -/
def fillOn (factory : SinkFactory σ κ) (rest : Bytes) (s : σ) :
    List Slot → Except MailError Unit × Splitter κ × σ
  | [] => (if rest.isEmpty then .ok () else .error (.integrity .streamTooLong), ⟨[], none, 0⟩, s)
  | next :: pending =>
    match factory.make next s with
    | (.error e, s) => (.error e, ⟨pending, none, 0⟩, s)
    | (.ok own, s) =>
      if rest.isEmpty then (.ok (), ⟨pending, some own, next.size.toNat⟩, s)
      else fill factory pending own next.size.toNat rest s

/-- Filling ends in the open sink, or closes it and goes on with the later ones. -/
lemma fill_eq (factory : SinkFactory σ κ) (pending : List Slot) (own : κ) (remaining : Nat)
    (b : Bytes) (s : σ) :
    fill factory pending own remaining b s =
      if b.length < remaining then
        match writeSome factory own b s with
        | (.error e, own, s) => (.error e, ⟨pending, some own, remaining⟩, s)
        | (.ok (), own, s) => (.ok (), ⟨pending, some own, remaining - b.length⟩, s)
      else
        match writeSome factory own (b.take remaining) s with
        | (.error e, own, s) => (.error e, ⟨pending, some own, remaining⟩, s)
        | (.ok (), own, s) =>
          match closeSink factory own s with
          | (.error e, s) => (.error e, ⟨pending, none, 0⟩, s)
          | (.ok (), s) => fillOn factory (b.drop remaining) s pending := by
  cases pending <;> rw [fill] <;> rfl

/-- The open sink has room for all bytes and more, or for the first ones exactly. -/
lemma room_cases (b : Bytes) (remaining : Nat) :
    b.length < remaining ∨ ∃ part rest, b = part ++ rest ∧ part.length = remaining := by
  rcases Nat.lt_or_ge b.length remaining with room | long
  · exact .inl room
  · exact .inr ⟨_, _, (List.take_append_drop remaining b).symm, List.length_take_of_le long⟩

/-- Bytes that fill the open sink close it, and the rest goes on to the later ones. -/
lemma fill_append (factory : SinkFactory σ κ) (pending : List Slot) (own : κ) (more rest : Bytes)
    (s : σ) :
    fill factory pending own more.length (more ++ rest) s =
      match writeSome factory own more s with
      | (.error e, own, s) => (.error e, ⟨pending, some own, more.length⟩, s)
      | (.ok (), own, s) =>
        match closeSink factory own s with
        | (.error e, s) => (.error e, ⟨pending, none, 0⟩, s)
        | (.ok (), s) => fillOn factory rest s pending := by
  have long : ¬(more ++ rest).length < more.length := by
    rw [List.length_append]
    omega
  rw [fill_eq, if_neg long, List.take_left, List.drop_left]

/-- With bytes for all of it, the slot of the open sink is delivered before filling goes on, unless
the run stops at it. -/
lemma fill_full {more rest : Bytes} (begun : factory.Begun slot pieces s own s')
    (room : pieces.flatten.length ≤ slot.size.toNat)
    (length_more : more.length = slot.size.toNat - pieces.flatten.length) :
    (∃ pieces' s₁, pieces.flatten ++ (more ++ rest) = pieces'.flatten ++ rest ∧
      pieces'.flatten.length = slot.size.toNat ∧ factory.Delivered slot pieces' s s₁ ∧
      fill factory pending own more.length (more ++ rest) s' = fillOn factory rest s₁ pending) ∨
    Outcome factory (slot :: pending) (pieces.flatten ++ (more ++ rest)) s
      (fill factory pending own more.length (more ++ rest) s') := by
  have full : (pieces.flatten ++ more).length = slot.size.toNat := by
    rw [List.length_append, length_more, Nat.add_sub_cancel' room]
  rw [fill_append, ← List.append_assoc]
  cases written : writeSome factory own more s' with
  | mk result state =>
    obtain ⟨own', s₁⟩ := state
    cases result with
    | error e =>
      have beginning : pieces.flatten ++ more <+:
          (pieces.flatten ++ more ++ rest).take slot.size.toNat :=
        List.prefix_take_iff.mpr ⟨List.prefix_append _ _, full.le⟩
      exact .inr (Stops.refused (.write begun beginning (write_of_writeSome written)))
    | ok =>
      obtain ⟨pieces', begun', whole⟩ := begun_of_writeSome begun written
      rw [← whole] at full ⊢
      rcases closeSink_outcome begun' full with
        ⟨s₂, closed, delivered⟩ | ⟨e, s₂, closed, stops⟩
      · exact .inl ⟨pieces', s₂, rfl, full, delivered, by simp only [closed]⟩
      · simp only [closed]
        exact .inr (stops pending rest)

/-- What comes of a piece for the open sink and the ones after it. -/
lemma fill_outcome (begun : factory.Begun slot pieces s own s')
    (room : pieces.flatten.length ≤ slot.size.toNat) :
    Outcome factory (slot :: pending) (pieces.flatten ++ b) s
      (fill factory pending own (slot.size.toNat - pieces.flatten.length) b s') := by
  -- on the slots behind the open sink, in the order in which filling comes to them
  induction pending generalizing slot pieces own s s' b with
  | nil =>
    obtain short | ⟨more, rest, rfl, fits⟩ :=
      room_cases b (slot.size.toNat - pieces.flatten.length)
    · exact fill_short begun short
    rw [← fits]
    obtain ⟨pieces', s₁, split, full, delivered, goesOn⟩ | outcome := fill_full begun room fits
    · rw [goesOn, split]
      refine Outcome.filled ?_ delivered full
      cases rest with
      | nil => exact Stands.finished
      | cons x rest => exact Stops.tooLong (List.cons_ne_nil x rest)
    · exact outcome
  | cons next pending ih =>
    obtain short | ⟨more, rest, rfl, fits⟩ :=
      room_cases b (slot.size.toNat - pieces.flatten.length)
    · exact fill_short begun short
    rw [← fits]
    obtain ⟨pieces', s₁, split, full, delivered, goesOn⟩ | outcome := fill_full begun room fits
    · rw [goesOn, split]
      refine Outcome.filled ?_ delivered full
      rw [fillOn]
      cases made : factory.make next s₁ with
      | mk result s₂ =>
        cases result with
        | error e => exact Stops.refused (.make made)
        | ok own' =>
          cases rest with
          -- the bytes end with the slot, and the next sink waits, even if it takes none
          | nil => exact Stands.filling (.make made) (Nat.zero_le _)
          | cons x rest => exact ih (.make made) (Nat.zero_le _)
    · exact outcome

/-- A piece that is written keeps the invariant, or the run stops. -/
lemma Stands.write_outcome (stands : Stands factory slots part s splitter s') (b : Bytes) :
    Outcome factory slots (part ++ b) s (Splitter.write factory b (splitter, s')) := by
  induction stands with
  | finished =>
    cases b with
    | nil => exact Stands.finished
    | cons x b => exact Stops.tooLong (List.cons_ne_nil x b)
  | filling begun room =>
    cases b with
    | nil =>
      rw [List.append_nil]
      exact Stands.filling begun room
    | cons x b => exact fill_outcome begun room
  -- the slots that were delivered before are not touched
  | filled delivered full _ ih =>
    rw [List.append_assoc]
    exact ih.filled delivered full

/-! ## The end of the stream -/

/-- From a full sink on, all slots are delivered if none takes bytes; otherwise the first one that
does stays open, unless the run stops. -/
lemma settle_outcome (pending : List Slot) (begun : factory.Begun slot pieces s own s')
    (full : pieces.flatten.length = slot.size.toNat) :
    ∃ s'',
      (totalSize pending = 0 ∧ settle factory pending own s' = (.ok true, s'') ∧
        factory.Delivers (slices (slot :: pending) pieces.flatten) s s'') ∨
      (0 < totalSize pending ∧ settle factory pending own s' = (.ok false, s'') ∧
        CutShort factory (slot :: pending) pieces.flatten s s'') ∨
      ∃ e, settle factory pending own s' = (.error e, s'') ∧
        Stops factory (slot :: pending) pieces.flatten e s s'' := by
  rw [← List.append_nil pieces.flatten]
  induction pending generalizing slot pieces own s s' with
  | nil =>
    rw [settle]
    rcases closeSink_outcome begun full with ⟨s₁, closed, delivered⟩ | ⟨e, s₁, closed, stops⟩
    · rw [closed]
      exact ⟨s₁, .inl ⟨rfl, rfl, Delivers.cons_slices delivered full .nil⟩⟩
    · rw [closed]
      exact ⟨s₁, .inr (.inr ⟨e, rfl, stops _ _⟩)⟩
  | cons next pending ih =>
    rw [settle]
    rcases closeSink_outcome begun full with ⟨s₁, closed, delivered⟩ | ⟨e, s₁, closed, stops⟩
    · rw [closed]
      cases made : factory.make next s₁ with
      | mk result s₂ =>
        cases result with
        | error e =>
          simp only [made]
          exact ⟨s₂, .inr (.inr ⟨e, rfl, .filled delivered full (.refused (.make made))⟩)⟩
        | ok own' =>
          simp only [made, totalSize_cons]
          have begun' : factory.Begun next [] s₁ own' s₂ := .make made
          -- an empty slot is full as soon as its sink is made, so settling goes on
          by_cases empty : next.size = 0
          · have size : next.size.toNat = 0 := by rw [empty]; rfl
            obtain ⟨s'', h⟩ := ih begun' size.symm
            rw [if_pos empty, size, Nat.zero_add]
            refine ⟨s'', ?_⟩
            rcases h with ⟨none, settled, delivers⟩ | ⟨some, settled, cutShort⟩ |
              ⟨e, settled, stops⟩
            · exact .inl ⟨none, settled, Delivers.cons_slices delivered full delivers⟩
            · exact .inr (.inl ⟨some, settled, .filled delivered full cutShort⟩)
            · exact .inr (.inr ⟨e, settled, .filled delivered full stops⟩)
          · have size : 0 < next.size.toNat := by
              apply Nat.pos_of_ne_zero
              intro zero
              exact empty (UInt32.toNat_inj.mp zero)
            rw [if_neg empty]
            exact ⟨s₂, .inr (.inl
              ⟨by omega, rfl, .filled delivered full (.filling begun' size)⟩)⟩
    · rw [closed]
      exact ⟨s₁, .inr (.inr ⟨e, rfl, stops _ _⟩)⟩

/-- Closing after the whole stream delivers what is left. Closing before fails, with the sink open
that waits for the next byte. In both cases a sink may stop the run. -/
lemma Stands.close_ends (stands : Stands factory slots part s splitter s') :
    ∃ result s'', splitter.close factory s' = (result, s'') ∧
      Ends factory slots part s result s'' := by
  induction stands with
  | @finished s => exact ⟨_, s, rfl, .delivered rfl .nil⟩
  | @filling slot rest pieces s own s' begun room =>
    -- a sink that takes more is not even closed
    rcases Nat.lt_or_ge pieces.flatten.length slot.size.toNat with short | full
    · obtain ⟨n, hn⟩ : ∃ n, slot.size.toNat - pieces.flatten.length = n + 1 :=
        ⟨_, (Nat.succ_pred_eq_of_pos (Nat.sub_pos_of_lt short)).symm⟩
      rw [Splitter.close, hn]
      refine ⟨_, s', rfl, .cutShort ?_ (.filling begun short)⟩
      rw [totalSize_cons]
      omega
    · have full := Nat.le_antisymm room full
      obtain ⟨s'', h⟩ := settle_outcome rest begun full
      rw [Splitter.close, full, Nat.sub_self]
      rcases h with ⟨none, settled, delivers⟩ | ⟨some, settled, cutShort⟩ | ⟨e, settled, stops⟩
      · refine ⟨_, s'', MailM.bind_ok settled, .delivered ?_ delivers⟩
        rw [totalSize_cons, none]
        exact full
      · refine ⟨_, s'', MailM.bind_ok settled, .cutShort ?_ cutShort⟩
        rw [totalSize_cons]
        omega
      · exact ⟨_, s'', MailM.bind_error settled, .stopped (List.prefix_refl _) stops⟩
  | filled delivered full _ ih =>
    obtain ⟨result, s'', closed, ends⟩ := ih
    exact ⟨result, s'', closed, ends.filled delivered full⟩

/-! ## Whole runs -/

/-- A call to a splitter; the pieces are counted from 0. -/
inductive Call where
  | start
  | write (number : Nat)
  | close
  deriving DecidableEq

/-- Writes pieces up to the first one that fails, of which the number and the error are told. The
first piece has the number `number`. -/
def writeAll (factory : SinkFactory σ κ) :
    List Bytes → Nat → Splitter κ × σ → Option (Nat × MailError) × Splitter κ × σ
  | [], _, s => (none, s)
  | piece :: rest, number, s =>
    match write factory piece s with
    | (.error e, s) => (some (number, e), s)
    | (.ok (), s) => writeAll factory rest (number + 1) s

/-- Makes a splitter, writes these pieces to it and closes it, up to the first call that fails,
which is told with its error. -/
def run (factory : SinkFactory σ κ) (slots : List Slot) (pieces : List Bytes) (s : σ) :
    Option (Call × MailError) × σ :=
  match start factory slots s with
  | (.error e, s) => (some (.start, e), s)
  | (.ok splitter, s) =>
    match writeAll factory pieces 0 (splitter, s) with
    | (some (number, e), _, s) => (some (.write number, e), s)
    | (none, splitter, s) =>
      match splitter.close factory s with
      | (.error e, s) => (some (.close, e), s)
      | (.ok (), s) => (none, s)

/-- Pieces keep the invariant up to the one at which the run stops. -/
lemma Stands.writeAll_outcome (stands : Stands factory slots part s splitter s')
    (pieces : List Bytes) (number : Nat) :
    ∃ splitter' s'',
      (Splitter.writeAll factory pieces number (splitter, s') = (none, splitter', s'') ∧
        Stands factory slots (part ++ pieces.flatten) s splitter' s'') ∨
      ∃ before piece after e, pieces = before ++ piece :: after ∧
        (part ++ before.flatten).length ≤ totalSize slots ∧
        Splitter.writeAll factory pieces number (splitter, s') =
          (some (number + before.length, e), splitter', s'') ∧
        Stops factory slots (part ++ before.flatten ++ piece) e s s'' := by
  -- the part of the stream before the pieces grows with each piece that is accepted
  induction pieces generalizing part number splitter s' with
  | nil =>
    rw [List.flatten_nil, List.append_nil]
    exact ⟨splitter, s', .inl ⟨rfl, stands⟩⟩
  | cons piece rest ih =>
    have outcome := stands.write_outcome piece
    rw [Splitter.writeAll, List.flatten_cons, ← List.append_assoc]
    cases written : Splitter.write factory piece (splitter, s') with
    | mk result state =>
      obtain ⟨splitter₁, s₁⟩ := state
      rw [written] at outcome
      cases result with
      | error e =>
        refine ⟨splitter₁, s₁, .inr ⟨[], piece, rest, e, rfl, ?_, rfl, ?_⟩⟩
        · rw [List.flatten_nil, List.append_nil]
          exact stands.length_le
        · rw [List.flatten_nil, List.append_nil]
          exact outcome
      | ok =>
        obtain ⟨splitter', s'', h⟩ := ih outcome (number + 1)
        refine ⟨splitter', s'', ?_⟩
        rcases h with h | ⟨before, piece', after, e, rfl, fits, writes, stops⟩
        · exact .inl h
        · refine .inr ⟨piece :: before, piece', after, e, rfl, ?_, ?_, ?_⟩
          · rw [List.flatten_cons, ← List.append_assoc]
            exact fits
          · refine writes.trans ?_
            rw [List.length_cons, Nat.add_right_comm]
            rfl
          · rw [List.flatten_cons, ← List.append_assoc]
            exact stops

/-- How a run ends, whatever the sinks are: with everything delivered, or with the stream at its end
before all slots are full, or at a call that a sink refuses or for which there is no slot left. -/
theorem run_ends (factory : SinkFactory σ κ) (slots : List Slot) (pieces : List Bytes) (s : σ) :
    ∃ failure s', run factory slots pieces s = (failure, s') ∧
      Ends factory slots pieces.flatten s (failure.elim (.ok ()) fun call => .error call.2) s' := by
  rw [run]
  rcases start_outcome factory slots s with ⟨splitter, s₁, started, stands⟩ | ⟨e, s₁, started, stops⟩
  · obtain ⟨splitter', s₂, h⟩ := stands.writeAll_outcome pieces 0
    rcases h with ⟨writes, stands'⟩ | ⟨before, piece, after, e, rfl, _, writes, stops⟩
    · obtain ⟨result, s', closed, ends⟩ := stands'.close_ends
      simp only [started, writes, closed]
      cases result with
      | error e => exact ⟨_, s', rfl, ends⟩
      | ok => exact ⟨_, s', rfl, ends⟩
    · simp only [started, writes]
      refine ⟨_, s₂, rfl, .stopped ⟨after.flatten, ?_⟩ stops⟩
      rw [List.nil_append, List.append_assoc, List.flatten_append, List.flatten_cons]
  · rw [started]
    exact ⟨_, s₁, rfl, .stopped (List.nil_prefix) stops⟩

/-- A run ended as its stream does. -/
lemma ends_of_run {failure : Option (Call × MailError)}
    (ran : run factory slots pieces s = (failure, s')) :
    Ends factory slots pieces.flatten s (failure.elim (.ok ()) fun call => .error call.2) s' := by
  obtain ⟨_, _, ran', ends⟩ := run_ends factory slots pieces s
  rw [ran] at ran'
  cases ran'
  exact ends

/-- A run in which no call failed has delivered to each slot its slice of the stream, and nothing of
the stream is left over. -/
theorem delivers_of_run (completed : run factory slots pieces s = (none, s')) :
    pieces.flatten.length = totalSize slots ∧
      factory.Delivers (slices slots pieces.flatten) s s' := by
  cases ends_of_run completed with
  | delivered whole delivers => exact ⟨whole, delivers⟩

/-! ## Runs over sinks that keep their payloads back -/

/-- Wherever a run stands, the slots before the open sink have their slices. -/
lemma Stands.deliversFirst (withholds : factory.Withholds)
    (stands : Stands factory slots part s splitter s') :
    factory.DeliversFirst slots part s s' := by
  induction stands with
  | finished => exact deliversFirst_none _ _ _
  | filling begun _ =>
    rw [withholds.eq_of_begun begun]
    exact deliversFirst_none _ _ _
  | filled delivered full _ ih => exact ih.cons delivered full

/-- Where a run was cut short, the slots before the open sink have their slices. -/
lemma CutShort.deliversFirst (withholds : factory.Withholds)
    (cutShort : CutShort factory slots part s s') : factory.DeliversFirst slots part s s' := by
  induction cutShort with
  | filling begun _ =>
    rw [withholds.eq_of_begun begun]
    exact deliversFirst_none _ _ _
  | filled delivered full _ ih => exact ih.cons delivered full

/-- Where a run stopped, the slots before have their slices. -/
lemma Stops.deliversFirst (withholds : factory.Withholds)
    (stops : Stops factory slots part e s s') : factory.DeliversFirst slots part s s' := by
  induction stops with
  | tooLong => exact deliversFirst_none _ _ _
  | refused refuses =>
    rw [withholds.eq_of_refuses refuses]
    exact deliversFirst_none _ _ _
  | filled delivered full _ ih => exact ih.cons delivered full

/-- However a run ends, slots from the first one on have their slices, and nothing else has changed.
If it succeeds these are all slots. -/
lemma Ends.exists_full (withholds : factory.Withholds) {stream : Bytes}
    {result : Except MailError Unit} (ends : Ends factory slots stream s result s') :
    ∃ full rest, slots = full ++ rest ∧ totalSize full ≤ stream.length ∧
      factory.Delivers (slices full stream) s s' ∧ (result = .ok () → rest = []) := by
  cases ends with
  | delivered whole delivers =>
    exact ⟨slots, [], (List.append_nil _).symm, whole.ge, delivers, fun _ => rfl⟩
  | cutShort short cutShort =>
    obtain ⟨full, rest, split, room, delivers⟩ := cutShort.deliversFirst withholds
    exact ⟨full, rest, split, room, delivers, nofun⟩
  | stopped begins stops =>
    obtain ⟨full, rest, split, room, delivers⟩ :=
      (stops.deliversFirst withholds).of_begins begins
    exact ⟨full, rest, split, room, delivers, nofun⟩

/-! ## Runs over sinks that accept their slices -/

/-- If every slot accepts its slice, a splitter can be started. -/
lemma Stands.start (accepts : factory.AcceptsAll slots part) (s : σ) :
    ∃ splitter s', Splitter.start factory slots s = (.ok splitter, s') ∧
      Stands factory slots [] s splitter s' := by
  rcases start_outcome factory slots s with h | ⟨e, s', _, stops⟩
  · exact h
  · obtain ⟨_, long, _⟩ := stops.of_accepts accepts
    exact absurd long (Nat.not_lt_zero _)

/-- Pieces keep the invariant as long as the stream does not exceed the slots. The piece with the
first byte that does is the one that fails. -/
lemma Stands.writeAll (stands : Stands factory slots part s splitter s')
    (accepts : factory.AcceptsAll slots (part ++ pieces.flatten)) (number : Nat) :
    ∃ splitter' s'',
      ((part ++ pieces.flatten).length ≤ totalSize slots ∧
        Splitter.writeAll factory pieces number (splitter, s') = (none, splitter', s'') ∧
        Stands factory slots (part ++ pieces.flatten) s splitter' s'') ∨
      (∃ before piece after, pieces = before ++ piece :: after ∧
        (part ++ before.flatten).length ≤ totalSize slots ∧
        totalSize slots < (part ++ before.flatten ++ piece).length ∧
        Splitter.writeAll factory pieces number (splitter, s') =
          (some (number + before.length, .integrity .streamTooLong), splitter', s'') ∧
        factory.Delivers (slices slots (part ++ pieces.flatten)) s s'') := by
  obtain ⟨splitter', s'', h⟩ := stands.writeAll_outcome pieces number
  refine ⟨splitter', s'', ?_⟩
  rcases h with ⟨writes, stands'⟩ | ⟨before, piece, after, e, rfl, fits, writes, stops⟩
  · exact .inl ⟨stands'.length_le, writes, stands'⟩
  · have whole : part ++ (before ++ piece :: after).flatten =
        part ++ before.flatten ++ piece ++ after.flatten := by
      rw [List.flatten_append, List.flatten_cons, List.append_assoc, List.append_assoc]
    rw [whole] at accepts ⊢
    obtain ⟨rfl, long, delivers⟩ := stops.of_accepts accepts
    refine .inr ⟨before, piece, after, rfl, fits, long, writes, ?_⟩
    rw [slices_append (Nat.le_of_lt long)]
    exact delivers

/-- Closing after the whole stream delivers what is left. Closing before fails, with the sink open
that waits for the next byte. -/
lemma Stands.close (stands : Stands factory slots part s splitter s')
    (accepts : factory.AcceptsAll slots part) :
    ∃ s'',
      (part.length = totalSize slots ∧ splitter.close factory s' = (.ok (), s'') ∧
        factory.Delivers (slices slots part) s s'') ∨
      (part.length < totalSize slots ∧
        splitter.close factory s' = (.error (.integrity .streamTooShort), s'') ∧
        CutShort factory slots part s s'') := by
  obtain ⟨result, s'', closed, ends⟩ := stands.close_ends
  refine ⟨s'', ?_⟩
  cases ends with
  | delivered whole delivers => exact .inl ⟨whole, closed, delivers⟩
  | cutShort short cutShort => exact .inr ⟨short, closed, cutShort⟩
  | stopped begins stops =>
    obtain ⟨more, rfl⟩ := begins
    obtain ⟨_, long, _⟩ := stops.of_accepts accepts
    have room := stands.length_le
    rw [List.length_append] at room
    omega

/-- The outcome of a run depends on the stream, and not on the pieces it comes in. A stream as long
as the slots together is accepted. A longer one is refused in the write that brings the first byte
too many. In both cases every slot gets its slice. After a shorter one closing fails; the slots
whose slices end by then were delivered, and the sink of the next one is open and has the rest. -/
theorem splitting_outcome (reliable : factory.Reliable) (slots : List Slot) (pieces : List Bytes)
    (s : σ) :
    ∃ failure s', run factory slots pieces s = (failure, s') ∧
      (pieces.flatten.length = totalSize slots →
        failure = none ∧ factory.Delivers (slices slots pieces.flatten) s s') ∧
      (totalSize slots < pieces.flatten.length →
        (∃ before piece after, pieces = before ++ piece :: after ∧
          before.flatten.length ≤ totalSize slots ∧
          totalSize slots < (before.flatten ++ piece).length ∧
          failure = some (.write before.length, .integrity .streamTooLong)) ∧
        factory.Delivers (slices slots pieces.flatten) s s') ∧
      (pieces.flatten.length < totalSize slots →
        failure = some (.close, .integrity .streamTooShort) ∧
        ∃ full slot rest, slots = full ++ slot :: rest ∧
          totalSize full ≤ pieces.flatten.length ∧
          pieces.flatten.length < totalSize full + slot.size.toNat ∧
          ∃ written own s'', factory.Delivers (slices full pieces.flatten) s s'' ∧
            factory.Begun slot written s'' own s' ∧
            written.flatten = pieces.flatten.drop (totalSize full)) := by
  have accepts := reliable.acceptsAll slots pieces.flatten
  obtain ⟨splitter, s₁, started, stands⟩ := Stands.start accepts s
  obtain ⟨splitter', s₂, h⟩ := stands.writeAll accepts 0
  rw [run, started]
  -- no write fails unless the stream is too long; then closing decides
  rcases h with ⟨_, writes, stands'⟩ | ⟨before, piece, after, rfl, fits, exceeds, writes, delivers⟩
  · obtain ⟨s', h⟩ := stands'.close accepts
    simp only [writes]
    rcases h with ⟨whole, closed, delivers⟩ | ⟨short, closed, cutShort⟩
    · rw [List.nil_append] at whole delivers
      refine ⟨none, s', by rw [closed], fun _ => ⟨rfl, delivers⟩, ?_, ?_⟩
      · intro long
        omega
      · intro short
        omega
    · rw [List.nil_append] at short cutShort
      refine ⟨_, s', by rw [closed], ?_, ?_, fun _ => ⟨rfl, cutShort.exists_open⟩⟩
      · intro whole
        omega
      · intro long
        omega
  · rw [List.nil_append] at fits exceeds delivers
    have long : totalSize slots < (before ++ piece :: after).flatten.length := by
      rw [List.flatten_append, List.flatten_cons, ← List.append_assoc, List.length_append]
      omega
    rw [Nat.zero_add] at writes
    simp only [writes]
    refine ⟨_, s₂, rfl, ?_, ?_, ?_⟩
    · intro whole
      omega
    · intro _
      exact ⟨⟨before, piece, after, rfl, fits, exceeds, rfl⟩, delivers⟩
    · intro short
      omega

/-- A factory that refuses no call is reliable. -/
lemma recording_reliable : (SinkFactory.recording fun _ => false).Reliable where
  make _ _ := ⟨_, _, rfl⟩
  write _ _ _ := ⟨_, _, rfl⟩
  close _ _ := ⟨_, _, rfl⟩

/-- Two bytes for a slot of one byte between two without payload. -/
theorem splitting_outcome_recorded :
    ∃ s', run (SinkFactory.recording fun _ => false) [⟨0, 0, ""⟩, ⟨1, 1, ""⟩, ⟨2, 0, ""⟩]
        [[], [7], [], [8]] [] = (some (.write 3, .integrity .streamTooLong), s') ∧
      (SinkFactory.recording fun _ => false).Delivers
        [(⟨0, 0, ""⟩, []), (⟨1, 1, ""⟩, [7]), (⟨2, 0, ""⟩, [])] [] s' := by
  obtain ⟨_, s', ran, _, tooLong, _⟩ := splitting_outcome recording_reliable
    [⟨0, 0, ""⟩, ⟨1, 1, ""⟩, ⟨2, 0, ""⟩] [[], [7], [], [8]] []
  obtain ⟨_, delivers⟩ := tooLong (by decide)
  refine ⟨s', ?_, delivers⟩
  cases ran
  rfl

end SealedMail.Splitter
