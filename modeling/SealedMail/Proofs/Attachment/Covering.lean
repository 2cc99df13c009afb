import SealedMail.Proofs.Attachment.Receiving

/-!
# Sinks that do more

Sinks may do something of their own, such as keeping a record, beside what other sinks do. Such
sinks cover the others (`SinkFactory.Covers`): a part of their state is the state of the others, and
every call does to this part what the call to the others does, with the same result. Then the
splitter makes the same calls to both (`Covers.fill`, `Covers.settle`), and receiving ends in the
same way (`Covers.receive`).
-/

namespace SealedMail

variable {σ τ κ ι α β : Type}

/-- The second computation does to a part of the state what the first one does, with the same
result. -/
def MailM.Follows (state : τ → σ) (x : MailM τ α) (y : MailM σ α) : Prop :=
  ∀ t result t', x t = (result, t') → y (state t) = (result, state t')

namespace MailM.Follows

variable {state : τ → σ}

/-- A result that needs no state is the same for both. -/
lemma ofExcept (x : Except MailError α) :
    Follows state (MailM.ofExcept x) (MailM.ofExcept x) := by
  intro t result t' run
  cases run
  rfl

/-- Computations one after the other follow each other if their parts do. -/
lemma bind {x : MailM τ α} {y : MailM σ α} {f : α → MailM τ β} {g : α → MailM σ β}
    (first : Follows state x y) (later : ∀ a, Follows state (f a) (g a)) :
    Follows state (x >>= f) (y >>= g) := by
  intro t result t' run
  cases ran : x t with
  | mk result₁ t₁ =>
    have ran' := first t _ _ ran
    cases result₁ with
    | error e =>
      rw [bind_error ran] at run
      cases run
      exact bind_error ran'
    | ok a =>
      rw [bind_ok ran] at run
      rw [bind_ok ran']
      exact later a _ _ _ run

/-- A loop follows a loop if each round follows a round. -/
lemma forM {x : α → MailM τ Unit} {y : α → MailM σ Unit}
    (each : ∀ a, Follows state (x a) (y a)) (l : List α) :
    Follows state (l.forM x) (l.forM y) := by
  induction l with
  | nil => exact ofExcept (.ok ())
  | cons a l ih => exact bind (each a) fun _ => ih

end MailM.Follows

open MailM (Follows)

/-- The splitter with other sinks. -/
def Splitter.map (f : ι → κ) (splitter : Splitter ι) : Splitter κ where
  pending := splitter.pending
  current := splitter.current.map f
  remaining := splitter.remaining

/-- The pipeline with other sinks. -/
def Pipeline.map (f : ι → κ) (pipeline : Pipeline ι) : Pipeline κ :=
  { pipeline with splitter := pipeline.splitter.map f }

namespace SinkFactory

/-- The sinks do what those of `inner` do, and perhaps something else. -/
structure Covers (outer : SinkFactory τ ι) (inner : SinkFactory σ κ) (state : τ → σ)
    (own : ι → κ) : Prop where
  makes : ∀ {slot t result t'}, outer.make slot t = (result, t') →
    inner.make slot (state t) = (result.map own, state t')
  writes : ∀ b, Follows (Prod.map own state) (outer.sink.write b) (inner.sink.write b)
  closes : Follows (Prod.map own state) outer.sink.close inner.sink.close

namespace Covers

variable {outer : SinkFactory τ ι} {inner : SinkFactory σ κ} {state : τ → σ} {own : ι → κ}
  {result : Except MailError Unit}

/-! ## The splitter -/

/-- Writing to a sink is writing to the one beneath it. -/
lemma writeSome (covers : Covers outer inner state own) {sink sink' : ι} {b : Bytes} {t t' : τ}
    (run : Splitter.writeSome outer sink b t = (result, sink', t')) :
    Splitter.writeSome inner (own sink) b (state t) = (result, own sink', state t') := by
  rw [Splitter.writeSome] at run ⊢
  split at run
  next nothing =>
    cases run
    exact if_pos nothing
  next some => exact (if_neg some).trans (covers.writes b _ _ _ run)

/-- Closing a sink is closing the one beneath it. -/
lemma closeSink (covers : Covers outer inner state own) {sink : ι} {t t' : τ}
    (run : Splitter.closeSink outer sink t = (result, t')) :
    Splitter.closeSink inner (own sink) (state t) = (result, state t') := by
  rw [Splitter.closeSink] at run ⊢
  cases ran : outer.sink.close (sink, t) with
  | mk result₁ rest =>
    rw [ran] at run
    cases run
    have closed := covers.closes _ _ _ ran
    rw [show (own sink, state t) = Prod.map own state (sink, t) from rfl, closed]
    rfl

/-- What a run of the splitter with the covering sinks comes to for the others. -/
def project (state : τ → σ) (own : ι → κ) :
    Except MailError Unit × Splitter ι × τ → Except MailError Unit × Splitter κ × σ :=
  Prod.map id (Prod.map (Splitter.map own) state)

/-- Filling a sink makes the same calls, if going on behind it does. -/
lemma fill_step (covers : Covers outer inner state own) {pending : List Slot}
    (later : ∀ rest t, Splitter.fillOn inner rest (state t) pending =
      project state own (Splitter.fillOn outer rest t pending))
    (sink : ι) (remaining : Nat) (b : Bytes) (t : τ) :
    Splitter.fill inner pending (own sink) remaining b (state t) =
      project state own (Splitter.fill outer pending sink remaining b t) := by
  rw [Splitter.fill_eq, Splitter.fill_eq]
  split
  next short =>
    cases ran : Splitter.writeSome outer sink b t with
    | mk result rest =>
      rw [covers.writeSome ran]
      cases result with
      | error e => rfl
      | ok => rfl
  next long =>
    cases ran : Splitter.writeSome outer sink (b.take remaining) t with
    | mk result rest =>
      rw [covers.writeSome ran]
      cases result with
      | error e => rfl
      | ok =>
        cases closed : Splitter.closeSink outer rest.1 rest.2 with
        | mk result t' =>
          simp only [covers.closeSink closed, closed]
          cases result with
          | error e => rfl
          | ok => exact later _ _

/-- Filling sinks is filling those beneath them. -/
lemma fill (covers : Covers outer inner state own) (pending : List Slot) (sink : ι)
    (remaining : Nat) (b : Bytes) (t : τ) :
    Splitter.fill inner pending (own sink) remaining b (state t) =
      project state own (Splitter.fill outer pending sink remaining b t) := by
  induction pending generalizing sink remaining b t with
  | nil => exact covers.fill_step (fun rest t => rfl) sink remaining b t
  | cons slot pending ih =>
    refine covers.fill_step (fun rest t => ?_) sink remaining b t
    rw [Splitter.fillOn, Splitter.fillOn]
    cases made : outer.make slot t with
    | mk result t' =>
      rw [covers.makes made]
      cases result with
      | error e => rfl
      | ok sink' =>
        simp only [Except.map]
        split
        next => rfl
        next => exact ih _ _ _ _

/-- Starting a splitter is starting one over the sinks beneath. -/
lemma start (covers : Covers outer inner state own) (slots : List Slot) (t : τ) :
    Splitter.start inner slots (state t) =
      Prod.map (Except.map (Splitter.map own)) state (Splitter.start outer slots t) := by
  cases slots with
  | nil => rfl
  | cons slot pending =>
    cases made : outer.make slot t with
    | mk result t' =>
      have made' := covers.makes made
      cases result with
      | error e =>
        rw [Splitter.start, Splitter.start, MailM.bind_error made, MailM.bind_error made']
        rfl
      | ok sink =>
        rw [Splitter.start, Splitter.start, MailM.bind_ok made, MailM.bind_ok made']
        rfl

/-- Writing to a splitter is writing to one over the sinks beneath. -/
lemma write (covers : Covers outer inner state own) (b : Bytes) :
    Follows (Prod.map (Splitter.map own) state) (Splitter.write outer b)
      (Splitter.write inner b) := by
  rintro ⟨⟨pending, current, remaining⟩, t⟩ result rest run
  rw [Splitter.write] at run
  rw [Prod.map_apply, Splitter.write]
  split at run
  next nothing =>
    cases run
    exact if_pos nothing
  next some =>
    rw [if_neg some]
    cases current with
    | none =>
      cases run
      rfl
    | some sink =>
      refine (covers.fill pending sink remaining b t).trans ?_
      rw [show Splitter.fill outer pending sink remaining b t = _ from run]
      rfl

/-- Settling sinks is settling those beneath them. -/
lemma settle (covers : Covers outer inner state own) (pending : List Slot) (sink : ι) (t : τ) :
    Splitter.settle inner pending (own sink) (state t) =
      Prod.map id state (Splitter.settle outer pending sink t) := by
  induction pending generalizing sink t with
  | nil =>
    rw [Splitter.settle, Splitter.settle]
    cases closed : Splitter.closeSink outer sink t with
    | mk result t' =>
      rw [covers.closeSink closed]
      cases result with
      | error e => rfl
      | ok => rfl
  | cons slot pending ih =>
    rw [Splitter.settle, Splitter.settle]
    cases closed : Splitter.closeSink outer sink t with
    | mk result t' =>
      rw [covers.closeSink closed]
      cases result with
      | error e => rfl
      | ok =>
        cases made : outer.make slot t' with
        | mk result t'' =>
          simp only [covers.makes made, made]
          cases result with
          | error e => rfl
          | ok sink' =>
            simp only [Except.map]
            split
            next => exact ih _ _
            next => rfl

/-- Closing a splitter is closing one over the sinks beneath. -/
lemma close (covers : Covers outer inner state own) (splitter : Splitter ι) :
    Follows state (splitter.close outer) ((splitter.map own).close inner) := by
  have verdict (isComplete : Bool) :
      Follows state (unless isComplete do throw (.integrity .streamTooShort) : MailM τ Unit)
        (unless isComplete do throw (.integrity .streamTooShort) : MailM σ Unit) := by
    cases isComplete with
    | true => exact .ofExcept (.ok ())
    | false => exact .ofExcept (.error _)
  obtain ⟨pending, current, remaining⟩ := splitter
  cases current with
  | none => exact verdict pending.isEmpty
  | some sink =>
    cases remaining with
    | zero =>
      refine MailM.Follows.bind (fun t result t' run => ?_) verdict
      refine (covers.settle pending sink t).trans ?_
      rw [show Splitter.settle outer pending sink t = _ from run]
      rfl
    | succ n => exact verdict false

/-! ## Receiving -/

/-- What a pipeline hands on goes to the sinks beneath. -/
lemma distribute (covers : Covers outer inner state own) (pipeline : Pipeline ι) :
    Follows (Prod.map (Splitter.map own) state) (pipeline.distribute outer)
      ((pipeline.map own).distribute inner) := by
  have fits : pipeline.ciphertext.length ≤
      ({ attachments := pipeline.ciphertext.length } : Limits).attachments := Nat.le_refl _
  rw [Pipeline.distribute_eq outer pipeline fits,
    Pipeline.distribute_eq inner (pipeline.map own) fits]
  exact .bind (.forM covers.write _) fun _ => .ofExcept _

/-- Finishing a pipeline is finishing one over the sinks beneath. -/
lemma finish (covers : Covers outer inner state own) (pipeline : Pipeline ι) :
    Follows state (pipeline.finish outer) ((pipeline.map own).finish inner) := by
  intro t result t' run
  rw [Pipeline.finish] at run ⊢
  cases ran : pipeline.distribute outer (pipeline.splitter, t) with
  | mk result₁ rest =>
    have ran' : (pipeline.map own).distribute inner ((pipeline.map own).splitter, state t) =
        (result₁, rest.1.map own, state rest.2) := covers.distribute pipeline _ _ _ ran
    rw [ran] at run
    rw [ran']
    cases result₁ with
    | error e =>
      cases run
      rfl
    | ok => exact covers.close _ _ _ _ run

/-- Receiving into sinks is receiving into those beneath them. -/
lemma receive (covers : Covers outer inner state own) (slots : List Slot) (key : SymmetricKey)
    (mode : Compression) (limits : Limits) (chunkSize : Nat) (pieces : List Bytes) :
    Follows state (Attachments.receive outer slots key mode limits chunkSize pieces)
      (Attachments.receive inner slots key mode limits chunkSize pieces) := by
  have rest (pipeline : Pipeline ι) :
      Follows state (pipeline.receive outer pieces) ((pipeline.map own).receive inner pieces) := by
    induction pieces generalizing pipeline with
    | nil => exact covers.finish pipeline
    | cons piece pieces ih =>
      -- what is kept of a piece has nothing to do with the sinks
      have kept : Pipeline.write piece (pipeline.map own) =
          Prod.map id (Pipeline.map own) (Pipeline.write piece pipeline) := rfl
      rw [Pipeline.receive, Pipeline.receive, kept]
      cases Pipeline.write piece pipeline with
      | mk result pipeline' =>
        cases result with
        | error e => exact .ofExcept (.error e)
        | ok => exact ih pipeline'
  intro t result t' run
  have started' := covers.start slots t
  cases started : Splitter.start outer slots t with
  | mk result₁ t₁ =>
    rw [started] at started'
    rw [Attachments.receive] at run ⊢
    cases result₁ with
    | error e =>
      rw [MailM.bind_error started] at run
      cases run
      exact MailM.bind_error started'
    | ok splitter =>
      rw [MailM.bind_ok started] at run
      rw [MailM.bind_ok started']
      exact rest _ _ _ _ run

end Covers

end SinkFactory

end SealedMail
