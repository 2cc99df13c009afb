import Mathlib.Data.List.Forall2
import Mathlib.Tactic.Lemma
import SealedMail.Entropy
import SealedMail.Field
import SealedMail.KeyRing
import SealedMail.Proofs.Address
import SealedMail.Proofs.DateTime

/-!
# How a computation ends

A row of steps succeeds exactly when every step does. These equivalences open such a row from the
front, one step at a time. The typed readers of a field stand at the end of it, and the operations
of a key pair: what they accept, and with which result. A row that fails does so with the error of
one of its steps (`FailsWith`). Steps that change a state may also be taken behind one that failed
(`MailM.attempts`).
-/

namespace SealedMail

variable {ε δ α β : Type}

/-- Steps succeed exactly if the first does, and the others do with its result. -/
@[simp]
lemma bind_eq_ok {x : Except ε α} {f : α → Except ε β} {b : β} :
    (x >>= f) = .ok b ↔ ∃ a, x = .ok a ∧ f a = .ok b := by
  cases x with
  | error e =>
    refine ⟨nofun, ?_⟩
    rintro ⟨a, ha, _⟩
    cases ha
  | ok a =>
    refine ⟨fun h => ⟨a, rfl, h⟩, ?_⟩
    rintro ⟨a', ha, h⟩
    cases ha
    exact h

/-- A result is itself. -/
@[simp]
lemma pure_eq_ok {a b : α} : (pure a : Except ε α) = .ok b ↔ b = a := by
  refine ⟨fun h => ?_, fun h => h ▸ rfl⟩
  cases h
  rfl

/-- A result is changed exactly if there is one. -/
@[simp]
lemma map_eq_ok {x : Except ε α} {f : α → β} {b : β} :
    f <$> x = .ok b ↔ ∃ a, x = .ok a ∧ b = f a := by
  rw [← bind_pure_comp, bind_eq_ok]
  exact exists_congr fun a => and_congr_right fun _ => pure_eq_ok

/-- An error is no result. -/
@[simp]
lemma throw_ne_ok {e : ε} {b : α} : (throw e : Except ε α) ≠ .ok b := nofun

/-- Telling errors otherwise makes no difference to results. -/
@[simp]
lemma mapError_eq_ok {x : Except ε α} {f : ε → δ} {a : α} :
    x.mapError f = .ok a ↔ x = .ok a := by
  cases x with
  | error e => exact ⟨nofun, nofun⟩
  | ok b => exact ⟨fun h => by cases h; rfl, fun h => by cases h; rfl⟩

/-- A step over a list succeeds exactly if it does for each element. -/
lemma mapM_eq_ok {f : α → Except ε β} {l : List α} {r : List β} :
    l.mapM f = .ok r ↔ List.Forall₂ (fun a b => f a = .ok b) l r := by
  induction l generalizing r with
  | nil => rw [List.mapM_nil, pure_eq_ok, List.forall₂_nil_left_iff]
  | cons a rest ih =>
    simp only [List.mapM_cons, bind_eq_ok, pure_eq_ok, List.forall₂_cons_left_iff, ih]
    refine exists_congr fun b => ⟨?_, ?_⟩
    · rintro ⟨first, bs, later, rfl⟩
      exact ⟨bs, first, later, rfl⟩
    · rintro ⟨bs, first, later, rfl⟩
      exact ⟨first, bs, later, rfl⟩

namespace Random

variable {entropy entropy' : Entropy}

/-- Random steps succeed exactly if the first does, and the others do with what it leaves. -/
lemma bind_eq_ok {x : Random ε α} {f : α → Random ε β} {r : β × Entropy} :
    (x >>= f) entropy = .ok r ↔
      ∃ a entropy', x entropy = .ok (a, entropy') ∧ f a entropy' = .ok r := by
  refine SealedMail.bind_eq_ok.trans ⟨?_, ?_⟩
  · rintro ⟨⟨a, entropy'⟩, first, rest⟩
    exact ⟨a, entropy', first, rest⟩
  · rintro ⟨a, entropy', first, rest⟩
    exact ⟨(a, entropy'), first, rest⟩

/-- A step that draws nothing leaves the entropy as it is. -/
lemma ofExcept_eq_ok {x : Except ε α} {a : α} :
    ofExcept x entropy = .ok (a, entropy') ↔ x = .ok a ∧ entropy' = entropy := by
  cases x with
  | error e => exact ⟨nofun, nofun⟩
  | ok b =>
    refine ⟨fun h => ?_, ?_⟩
    · cases h
      exact ⟨rfl, rfl⟩
    · rintro ⟨h, rfl⟩
      cases h
      rfl

/-- Telling errors otherwise makes no difference to random results. -/
lemma mapError_eq_ok {x : Random ε α} {wrap : ε → δ} {r : α × Entropy} :
    mapError wrap x entropy = .ok r ↔ x entropy = .ok r := SealedMail.mapError_eq_ok

/-- As many random bytes are drawn as were asked for. -/
lemma length_of_bytes {n : Nat} {b : Bytes}
    (h : (bytes n : Random ε Bytes) entropy = .ok (b, entropy')) : b.length = n := by
  cases h
  exact Entropy.length_draw n entropy

end Random

namespace MailM

variable {σ : Type}

/-- After a step that succeeds the others go on in its state. -/
lemma bind_ok {x : MailM σ α} {f : α → MailM σ β} {a : α} {s s' : σ} (h : x s = (.ok a, s')) :
    (x >>= f) s = f a s' := by
  simp only [bind, ExceptT.bind, ExceptT.mk, ExceptT.bindCont, StateT.bind, h]

/-- After a step that fails there are no others. -/
lemma bind_error {x : MailM σ α} {f : α → MailM σ β} {e : MailError} {s s' : σ}
    (h : x s = (.error e, s')) : (x >>= f) s = (.error e, s') := by
  simp only [bind, ExceptT.bind, ExceptT.mk, ExceptT.bindCont, StateT.bind, h]
  rfl

/-- A computation that never fails. -/
lemma liftM_ok {x : StateM σ α} {a : α} {s s' : σ} (h : x s = (a, s')) :
    (liftM x : MailM σ α) s = (.ok a, s') := by
  show (Except.ok (x s).1, (x s).2) = (Except.ok a, s')
  rw [h]

/-- A result that needs no state leaves it as it is. -/
@[simp]
lemma ofExcept_apply (x : Except MailError α) (s : σ) : ofExcept x s = (x, s) := rfl

/-- Takes one step after the other, also behind one that failed, and tells how each ended. -/
def attempts (step : α → MailM σ Unit) : List α → σ → List (Except MailError Unit) × σ
  | [], s => ([], s)
  | a :: rest, s =>
    let (result, s) := step a s
    let (results, s) := attempts step rest s
    (result :: results, s)

/-- Each attempt has a result. -/
lemma length_attempts (step : α → MailM σ Unit) (l : List α) (s : σ) :
    (attempts step l s).1.length = l.length := by
  induction l generalizing s with
  | nil => rfl
  | cons a rest ih => exact congrArg (· + 1) (ih _)

/-- If no step fails, going on behind a failure makes no difference. -/
lemma forM_of_attempts {step : α → MailM σ Unit} {l : List α} {s : σ}
    (succeed : ∀ result ∈ (attempts step l s).1, result = .ok ()) :
    l.forM step s = (.ok (), (attempts step l s).2) := by
  induction l generalizing s with
  | nil => rfl
  | cons a rest ih =>
    obtain ⟨first, later⟩ := List.forall_mem_cons.mp succeed
    rw [List.forM_eq_forM, List.forM_cons, bind_ok (Prod.ext first rfl), ← List.forM_eq_forM]
    exact ih later

end MailM

namespace Field

/-- Telling the name of a field makes no difference to results. -/
@[simp]
lemma named_eq_ok {name : String} {x : Except FieldError α} {a : α} :
    named name x = .ok a ↔ x = .ok a := by
  cases x with
  | error e => exact ⟨nofun, nofun⟩
  | ok b => exact ⟨fun h => by cases h; rfl, fun h => by cases h; rfl⟩

/-- A text is read as itself, unless it is empty and may not be. -/
@[simp]
lemma string_eq_ok {allowEmpty : Bool} {s t : String} :
    string allowEmpty (.string s) = .ok t ↔ (allowEmpty = false → s ≠ "") ∧ t = s := by
  by_cases refused : allowEmpty = false ∧ s = ""
  · obtain ⟨rfl, rfl⟩ := refused
    simp [string]
  · have read : string allowEmpty (.string s) = .ok s := by
      cases allowEmpty with
      | true => rfl
      | false => simpa [string] using refused
    rw [read, Except.ok.injEq]
    exact ⟨fun h => ⟨fun no empty => refused ⟨no, empty⟩, h.symm⟩, fun h => h.2.symm⟩

/-- Hexadecimal text is read as itself if it has digits only, and some. -/
@[simp]
lemma hex_eq_ok {s t : String} :
    hex false (.string s) = .ok t ↔ (s ≠ "" ∧ ∀ c ∈ s.toList, Hex.isDigit c = true) ∧ t = s := by
  simp only [hex, bind_eq_ok, string_eq_ok, forall_const]
  refine ⟨?_, ?_⟩
  · rintro ⟨_, ⟨nonempty, rfl⟩, h⟩
    split at h
    next digits =>
      cases h
      exact ⟨⟨nonempty, List.all_eq_true.mp digits⟩, rfl⟩
    next => cases h
  · rintro ⟨⟨nonempty, digits⟩, rfl⟩
    exact ⟨t, ⟨nonempty, rfl⟩, if_pos (List.all_eq_true.mpr digits)⟩

/-- A number of 32 bits is read back. -/
@[simp]
lemma unsigned_toNat (n : UInt32) : unsigned (.integer n.toNat) = .ok n := by
  have small : n.toNat < UInt32.size := n.toNat_lt
  show unsigned (.integer (.ofNat n.toNat)) = .ok n
  rw [unsigned, if_pos small, UInt32.ofNat_toNat]

/-- A text that may be left out is read as itself. -/
@[simp]
lemma stringOr_empty_eq_ok {s t : String} : stringOr "" (.string s) = .ok t ↔ t = s := by
  simp [stringOr]

/-- An address is read back from its text. -/
@[simp]
lemma address_text (a : Address) : address (.string a.text) = .ok a := by
  simp [address, string, addressOfString]

/-- A date is read back from what is written for it. -/
@[simp]
lemma date_render (d : DateTime) : date (.string d.render) = .ok d := by
  simp [date, string]

end Field

/-! ## Keys -/

/-- A key is of the purpose that is required, or is refused. -/
lemma KeyPurpose.require_eq_ok {expected actual : KeyPurpose} :
    expected.require actual = .ok () ↔ actual = expected := by
  rw [require]
  split
  next same => exact ⟨fun _ => same.symm, fun _ => rfl⟩
  next other => exact ⟨nofun, fun same => absurd same.symm other⟩

/-- There is a result exactly if there is something. -/
lemma orFail_eq_ok {error : CipherError} {x : Option α} {a : α} :
    orFail error x = .ok a ↔ x = some a := by
  cases x with
  | none => exact ⟨nofun, nofun⟩
  | some b => rw [orFail, Except.ok.injEq, Option.some.injEq]

/-- What a key is used for is what it is for. -/
lemma require_bind_eq_ok {expected actual : KeyPurpose} {x : Except CipherError α} {a : α} :
    (expected.require actual >>= fun _ => x) = .ok a ↔ actual = expected ∧ x = .ok a := by
  rw [bind_eq_ok, ← KeyPurpose.require_eq_ok]
  exact ⟨fun ⟨_, required, h⟩ => ⟨required, h⟩, fun h => ⟨(), h⟩⟩

/-- A public key encrypts exactly if it is one for encryption and the text fits. -/
lemma PublicKey.encrypt_eq_ok {key : PublicKey} {seed text ciphertext : Bytes} :
    key.encrypt seed text = .ok ciphertext ↔
      key.purpose = .encryption ∧ Rsa.Oaep.encrypt? key.numbers seed text = some ciphertext := by
  rw [encrypt, require_bind_eq_ok, orFail_eq_ok]

/-- A private key decrypts exactly if it is one for encryption and the padding is right. -/
lemma PrivateKey.decrypt_eq_ok {key : PrivateKey} {ciphertext text : Bytes} :
    key.decrypt ciphertext = .ok text ↔
      key.purpose = .encryption ∧ Rsa.Oaep.decrypt? key.numbers ciphertext = some text := by
  rw [decrypt, require_bind_eq_ok, orFail_eq_ok]

/-- A private key signs exactly if it is one for signatures and large enough. -/
lemma PrivateKey.sign_eq_ok {key : PrivateKey} {salt text signature : Bytes} :
    key.sign salt text = .ok signature ↔
      key.purpose = .signature ∧ Rsa.Pss.sign? key.numbers salt text = some signature := by
  rw [sign, require_bind_eq_ok, orFail_eq_ok]

/-- A key says something about a signature only if it is for signatures. -/
lemma PublicKey.verify_eq_ok {key : PublicKey} {text signature : Bytes} {holds : Bool} :
    key.verify text signature = .ok holds ↔
      key.purpose = .signature ∧ holds = Rsa.Pss.verify key.numbers text signature := by
  rw [verify, require_bind_eq_ok, pure_eq_ok]

/-! ## Failures -/

/-- If the computation fails, it does so with such an error. -/
def FailsWith (p : MailError → Prop) (x : Except MailError α) : Prop := ∀ e, x = .error e → p e

namespace FailsWith

variable {p : MailError → Prop}

lemma ok (a : α) : FailsWith p (.ok a) := nofun

lemma error {e : MailError} (h : p e) : FailsWith p (.error e : Except MailError α) := by
  intro e' failed
  cases failed
  exact h

/-- What fails in one way fails in any way that this implies. -/
lemma mono {q : MailError → Prop} {x : Except MailError α} (fails : FailsWith p x)
    (weaker : ∀ e, p e → q e) : FailsWith q x := fun e failed => weaker e (fails e failed)

/-- A later step is only taken with what the first one gave. -/
lemma bind_of {x : Except MailError α} {f : α → Except MailError β} (first : FailsWith p x)
    (later : ∀ a, x = .ok a → FailsWith p (f a)) : FailsWith p (x >>= f) := by
  intro e failed
  cases x with
  | error e' =>
    cases failed
    exact first _ rfl
  | ok a => exact later a rfl e failed

lemma bind {x : Except MailError α} {f : α → Except MailError β} (first : FailsWith p x)
    (later : ∀ a, FailsWith p (f a)) : FailsWith p (x >>= f) :=
  bind_of first fun a _ => later a

lemma ite {c : Prop} [Decidable c] {x y : Except MailError α} (yes : FailsWith p x)
    (no : FailsWith p y) : FailsWith p (if c then x else y) := by
  split
  · exact yes
  · exact no

/-- A check that refuses or lets the computation go on. -/
lemma check {c : Prop} [Decidable c] {e : MailError} {rest : Unit → Except MailError α}
    (refused : c → p e) (later : ¬ c → FailsWith p (rest ())) :
    FailsWith p (if c then (.error e : Except MailError Unit) >>= rest else rest ()) := by
  by_cases h : c
  · rw [if_pos h]
    exact error (refused h)
  · rw [if_neg h]
    exact later h

/-- Steps over a list fail as they should if each of them does. -/
lemma foldlM {f : β → α → Except MailError β} (each : ∀ b a, FailsWith p (f b a)) (l : List α) :
    ∀ b, FailsWith p (l.foldlM f b) := by
  induction l with
  | nil => exact ok
  | cons a rest ih =>
    intro b
    exact bind (each b a) ih

end FailsWith

/-- The error says that something is wrong with the bytes. -/
def MailError.IsFault (e : MailError) : Prop := ∃ fault, e = .invalid fault

/-- A fault is a fault. -/
lemma FailsWith.invalid (fault : Fault) :
    FailsWith MailError.IsFault (.error (.invalid fault) : Except MailError α) :=
  .error ⟨fault, rfl⟩

/-- A field that cannot be read is a fault. -/
lemma FailsWith.named (name : String) (x : Except FieldError α) :
    FailsWith MailError.IsFault (Field.named name x) := by
  cases x with
  | ok a => exact .ok a
  | error e => exact .invalid (.field name e)

end SealedMail
