import SealedMail.Proofs.Attachment.Checking

/-!
# What a check of digests lets through

A check in front of a single sink. All that is written reaches the sink, call by call, and closing
reaches it exactly if the digest of what was written is the expected one, in any letter case
(`Sink.checked_exact`). The digest is of the pieces put together, wherever they end, and it may be
taken of a copy of the hasher at any time (`Sha512.Hasher.use_exact`).

Closing takes the digest, so a check that is closed once more expects the digest of what was written
since (`Sink.close_checked_restart`).
-/

namespace SealedMail

/-- The texts are equal, capital letters of ASCII taken as small ones. -/
def EqIgnoringCase (s t : String) : Prop := s.toLower = t.toLower

instance (s t : String) : Decidable (EqIgnoringCase s t) :=
  inferInstanceAs (Decidable (s.toLower = t.toLower))

/-- A slot names a payload by its digest, in letters of any case. -/
lemma Slot.names_iff {slot : Slot} {content : Bytes} :
    slot.Names content ↔ EqIgnoringCase slot.hash (Hex.encode (Sha512.digest content)) := by
  have letters (s : String) : s.toLower.toList = s.toList.map Char.toLower := String.toList_map
  rw [EqIgnoringCase, ← String.toList_inj, letters, letters, Hex.map_toLower_encode]
  rfl

/-! ## Hashers -/

namespace Sha512

/-- Something that is done with a hasher: it is fed bytes, or the digest is taken of a copy. -/
inductive Use where
  | feed (b : Bytes)
  | look

/-- The bytes that a hasher is fed. -/
def Use.bytes : Use → Bytes
  | feed b => b
  | look => []

/-- What a hasher had been fed each time that the digest was taken, after some bytes. -/
def looked : List Use → Bytes → List Bytes
  | [], _ => []
  | .feed b :: uses, fed => looked uses (fed ++ b)
  | .look :: uses, fed => fed :: looked uses fed

namespace Hasher

/-- Uses a hasher, and tells the digests that were taken. -/
def use : List Use → Hasher → List Bytes × Hasher
  | [], hasher => ([], hasher)
  | .feed b :: uses, hasher => use uses (hasher.update b)
  | .look :: uses, hasher =>
    let (digests, used) := use uses hasher
    (hasher.finish :: digests, used)

/-- Digests that are taken in between are those of what came by then, and do not disturb the hasher.
-/
lemma use_took (uses : List Use) {hasher : Hasher} {fed : Bytes} (took : hasher.Took variant fed) :
    (use uses hasher).1 = (looked uses fed).map digest ∧
      (use uses hasher).2.Took variant (fed ++ uses.flatMap Use.bytes) := by
  induction uses generalizing hasher fed with
  | nil =>
    rw [List.flatMap_nil, List.append_nil]
    exact ⟨rfl, took⟩
  | cons first uses ih =>
    rw [List.flatMap_cons, ← List.append_assoc]
    cases first with
    | feed b => exact ih (took.update blockSize_pos b)
    | look =>
      obtain ⟨digests, took'⟩ := ih took
      have first : (use (.look :: uses) hasher).1 = hasher.finish :: (use uses hasher).1 := rfl
      rw [Use.bytes, List.append_nil, first, digests, looked, List.map_cons]
      exact ⟨congrArg (· :: _) (took.finish blockSize_pos), took'⟩

/-- Every digest is of all that the hasher had been fed by then, in whatever pieces, and the hasher
goes on as if none had been taken. -/
lemma use_exact (uses : List Use) :
    (use uses start).1 = (looked uses []).map digest ∧
      (use uses start).2.finish = digest (uses.flatMap Use.bytes) := by
  obtain ⟨digests, took⟩ := use_took uses (Digest.Hasher.took_start blockSize_pos)
  exact ⟨digests, took.finish blockSize_pos⟩

end Hasher

end Sha512

/-! ## Sinks -/

/-- A call to a sink. -/
inductive SinkCall where
  | write (b : Bytes)
  | close
  deriving DecidableEq

namespace Sink

variable {σ : Type}

/-- The sink with a record of the calls to it, the first one first. -/
def logged (sink : Sink σ) : Sink (List SinkCall × σ) where
  write b := fun (calls, s) =>
    let (result, s) := sink.write b s
    (result, calls ++ [.write b], s)
  close := fun (calls, s) =>
    let (result, s) := sink.close s
    (result, calls ++ [.close], s)

variable {sink : Sink σ} {chunks : List Bytes} {s s' : σ}

/-- Calls that are accepted are accepted by a sink that keeps something beside. -/
lemma forM_beside {α : Type} {write : Bytes → MailM σ Unit} {beside : Bytes → MailM (α × σ) Unit}
    {note : α → Bytes → α}
    (accepted : chunks.forM write s = (.ok (), s'))
    (each : ∀ {b s s'}, write b s = (.ok (), s') →
      ∀ kept, beside b (kept, s) = (.ok (), note kept b, s'))
    (kept : α) :
    chunks.forM beside (kept, s) = (.ok (), chunks.foldl note kept, s') := by
  induction chunks generalizing kept s with
  | nil =>
    cases accepted
    rfl
  | cons chunk chunks ih =>
    cases written : write chunk s with
    | mk result s₁ =>
      cases result with
      | error e => cases (MailM.bind_error written).symm.trans accepted
      | ok =>
        have later := (MailM.bind_ok written).symm.trans accepted
        exact (MailM.bind_ok (each written kept)).trans (ih later (note kept chunk))

/-- Pieces that were accepted are on the log in their order. -/
lemma forM_logged (accepted : chunks.forM sink.write s = (.ok (), s')) (calls : List SinkCall) :
    chunks.forM sink.logged.write (calls, s) = (.ok (), calls ++ chunks.map .write, s') := by
  have each {b : Bytes} {s s' : σ} (written : sink.write b s = (.ok (), s'))
      (calls : List SinkCall) :
      sink.logged.write b (calls, s) = (.ok (), calls ++ [.write b], s') := by
    simp only [logged, written]
  rw [List.map_eq_flatMap, List.flatMap_def, ← List.foldl_append_eq_append]
  exact forM_beside accepted each calls

/-- Pieces that were accepted went through the check in their order. -/
lemma forM_checked (accepted : chunks.forM sink.write s = (.ok (), s')) (check : DigestCheck) :
    chunks.forM sink.checked.write (check, s) =
      (.ok (), chunks.foldl DigestCheck.update check, s') := by
  refine forM_beside accepted (fun written check => ?_) check
  simp only [checked, written]

/-- A check that is updated with pieces has taken all of them. -/
lemma checks_foldl {slot : Slot} {content : Bytes} {check : DigestCheck}
    (checks : SinkFactory.Checks slot content check) (chunks : List Bytes) :
    SinkFactory.Checks slot (content ++ chunks.flatten)
      (chunks.foldl DigestCheck.update check) := by
  induction chunks generalizing content check with
  | nil =>
    rw [List.flatten_nil, List.append_nil]
    exact checks
  | cons chunk chunks ih =>
    rw [List.flatten_cons, ← List.append_assoc]
    exact ih (checks.update chunk)

/-- Closing reaches the sink exactly if the digest is the expected one. -/
lemma close_checked_eq {slot : Slot} {content : Bytes} {check : DigestCheck}
    (checks : SinkFactory.Checks slot content check) (sink : Sink σ) (s : σ) :
    sink.checked.close (check, s) =
      if EqIgnoringCase slot.hash (Hex.encode (Sha512.digest content)) then
        ((sink.close s).1, check.restart, (sink.close s).2)
      else (.error (.integrity (.hashMismatch slot.index)), check.restart, s) := by
  have right := checks.isRight_iff.trans Slot.names_iff
  rw [← checks.index]
  simp only [checked, right]
  rfl

/-- A check that is closed once more counts what was written since: with nothing in between, it
expects the digest of no bytes. -/
lemma close_checked_restart {slot : Slot} {content : Bytes} {check : DigestCheck}
    (checks : SinkFactory.Checks slot content check) (sink : Sink σ) (s : σ) :
    sink.checked.close (check.restart, s) =
      if EqIgnoringCase slot.hash (Hex.encode (Sha512.digest [])) then
        ((sink.close s).1, check.restart, (sink.close s).2)
      else (.error (.integrity (.hashMismatch slot.index)), check.restart, s) :=
  close_checked_eq checks.restart sink s

/-- The check is transparent and exact. Pieces that the sink accepts reach it as they are, and none
but them. Then closing closes the sink if the digest of the pieces put together is the one that the
slot names, in any letter case, and otherwise fails for the slot and leaves the sink open. The
digest does not depend on where the pieces end, and can be taken of a copy at any time. -/
theorem checked_exact (slot : Slot) (accepted : chunks.forM sink.write s = (.ok (), s')) :
    (∃ check,
      chunks.forM sink.logged.checked.write (.start slot, [], s) =
        (.ok (), check, chunks.map .write, s') ∧
      sink.logged.checked.close (check, chunks.map .write, s') =
        if EqIgnoringCase slot.hash (Hex.encode (Sha512.digest chunks.flatten)) then
          ((sink.close s').1, check.restart, chunks.map .write ++ [.close], (sink.close s').2)
        else
          (.error (.integrity (.hashMismatch slot.index)), check.restart, chunks.map .write, s')) ∧
    ∀ uses, (Sha512.Hasher.use uses .start).1 = (Sha512.looked uses []).map Sha512.digest ∧
      (Sha512.Hasher.use uses .start).2.finish = Sha512.digest (uses.flatMap Sha512.Use.bytes) := by
  have checks := checks_foldl (SinkFactory.checks_start slot) chunks
  refine ⟨⟨chunks.foldl DigestCheck.update (.start slot), ?_, ?_⟩, Sha512.Hasher.use_exact⟩
  · exact forM_checked (forM_logged accepted []) (.start slot)
  · exact close_checked_eq checks sink.logged (chunks.map .write, s')

/-- A payload in three pieces, of which the first is empty, with the right digest. -/
theorem checked_exact_buffered :
    let slot : Slot := ⟨3, 2, Hex.encode (Sha512.digest [1, 2])⟩
    let calls : List SinkCall := [.write [], .write [1], .write [2]]
    [[], [1], [2]].forM buffer.write [] = (.ok (), [[2], [1], []]) ∧
      ∃ check,
        [[], [1], [2]].forM buffer.logged.checked.write (.start slot, [], []) =
          (.ok (), check, calls, [[2], [1], []]) ∧
        buffer.logged.checked.close (check, calls, [[2], [1], []]) =
          (.ok (), check.restart, calls ++ [.close], [[2], [1], []]) := by
  intro slot calls
  have accepted : [[], [1], [2]].forM buffer.write [] = (.ok (), [[2], [1], []]) := rfl
  obtain ⟨⟨check, written, closed⟩, _⟩ := checked_exact slot accepted
  exact ⟨accepted, check, written, closed.trans (if_pos rfl)⟩

end Sink

end SealedMail
