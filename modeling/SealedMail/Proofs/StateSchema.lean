import SealedMail.Proofs.Meta
import SealedMail.Proofs.Schema

/-!
# What an envelope of a state must be

The schema of an envelope, version by version. The two flags of a state are truth values in version
0 and numbers in version 1 (`Field.IsTruth`, `Field.IsCount`), in an object that may be left out
(`MessageState.DescribesFlags`), and the text of the object is encrypted with one vector or another.
What follows a later version is not looked at (`SealedState.Describes`). An envelope is opened
exactly if it follows the schema, and what is written follows it
(`SealedState.opened_iff_described`).
-/

namespace SealedMail

/-! ## Fields -/

namespace Field

/-- The value is a truth value, or null in place of false. -/
def IsTruth (json : Json) (b : Bool) : Prop := json = .null ∧ b = false ∨ json = .bool b

/-- The value is a number of 32 bits, which is zero for false only, or null in place of zero. -/
def IsCount (json : Json) (b : Bool) : Prop :=
  json = .null ∧ b = false ∨ ∃ n : UInt32, json = .integer n.toNat ∧ b = (n != 0)

variable {json : Json} {b : Bool}

/-- Null is false. -/
lemma isTruth_null : IsTruth .null b ↔ b = false := by
  simp [IsTruth]

/-- Null is no count, and so false. -/
lemma isCount_null : IsCount .null b ↔ b = false := by
  simp [IsCount]

/-- A truth value is read exactly from itself. -/
lemma bool_eq_ok : bool json = .ok b ↔ json = .bool b := by
  cases json with
  | bool b' => rw [bool, Except.ok.injEq, Json.bool.injEq]
  | _ => exact ⟨nofun, nofun⟩

/-- A truth value that may be left out is read exactly from itself, or from null for false. -/
lemma boolOr_eq_ok : boolOr false json = .ok b ↔ IsTruth json b := by
  by_cases null : json = .null
  · subst null
    rw [isTruth_null, boolOr, Except.ok.injEq]
    exact eq_comm
  · have read : boolOr false json = bool json := by
      cases json with
      | null => exact absurd rfl null
      | _ => rfl
    rw [read, bool_eq_ok]
    exact ⟨.inr, fun h => h.resolve_left fun absent => null absent.1⟩

/-- A number that may be left out is read exactly from itself, or from null for zero. -/
lemma unsignedOr_eq_ok {n : UInt32} :
    unsignedOr 0 json = .ok n ↔ json = .null ∧ n = 0 ∨ json = .integer n.toNat := by
  by_cases null : json = .null
  · subst null
    rw [unsignedOr, Except.ok.injEq, eq_comm]
    simp
  · have read : unsignedOr 0 json = unsigned json := by
      cases json with
      | null => exact absurd rfl null
      | _ => rfl
    rw [read, unsigned_eq_ok]
    exact ⟨.inr, fun h => h.resolve_left fun absent => null absent.1⟩

/-- A flag is read exactly from a count that is not zero if it holds. -/
lemma exists_unsignedOr :
    (∃ n, unsignedOr 0 json = .ok n ∧ b = (n != 0)) ↔ IsCount json b := by
  simp only [unsignedOr_eq_ok]
  refine ⟨?_, ?_⟩
  · rintro ⟨n, ⟨absent, rfl⟩ | number, rfl⟩
    · exact .inl ⟨absent, rfl⟩
    · exact .inr ⟨n, number, rfl⟩
  · rintro (⟨absent, rfl⟩ | ⟨n, number, flag⟩)
    · exact ⟨0, .inl ⟨absent, rfl⟩, rfl⟩
    · exact ⟨n, .inr number, flag⟩

end Field

/-! ## Texts -/

namespace MessageState

open SealedMail.Field

/-- The text describes two flags of the given kind: there is no text, which stands for neither, or
it is an object with the two as fields. -/
def DescribesFlags (isFlag : Json → Bool → Prop) (text : String) (read done : Bool) : Prop :=
  text = "" ∧ read = false ∧ done = false ∨
    ∃ json, Json.ofString? text = some json ∧ json.isObject = true ∧
      isFlag (json.field "read") read ∧ isFlag (json.field "done") done

variable {text : String} {state : MessageState}

/-- There are two known versions. -/
lemma eq_zero_or_one {version : UInt32} (known : version ≤ latestVersion) :
    version = 0 ∨ version = 1 := by
  have small : version.toNat ≤ 1 := UInt32.le_iff_toNat_le.mp known
  obtain zero | one := Nat.le_one_iff_eq_zero_or_eq_one.mp small
  · exact .inl (UInt32.toNat_inj.mp zero)
  · exact .inr (UInt32.toNat_inj.mp one)

/-- A state is read from an object, or from an empty text as if nothing were told. -/
lemma readObject_eq_ok {version : UInt32} {json : Json} :
    readObject version text = .ok json ↔
      text = "" ∧ json = .null ∨ Json.ofString? text = some json ∧ json.isObject = true := by
  by_cases empty : text = ""
  · subst empty
    rw [show readObject version "" = .ok .null from rfl, Except.ok.injEq]
    refine ⟨fun h => .inl ⟨rfl, h.symm⟩, ?_⟩
    rintro (⟨_, rfl⟩ | ⟨parsed, _⟩)
    · rfl
    · cases parsed
  · rw [readObject, if_neg (empty ∘ String.isEmpty_iff.mp)]
    simp only [empty, false_and, false_or]
    cases Json.ofString? text with
    | none =>
      refine ⟨?_, ?_⟩
      · rintro ⟨⟩
      · rintro ⟨⟨⟩, _⟩
    | some json' =>
      dsimp only
      split
      next object =>
        rw [Except.ok.injEq, Option.some.injEq]
        refine ⟨?_, fun h => h.1⟩
        rintro rfl
        exact ⟨rfl, object⟩
      next other =>
        refine ⟨?_, ?_⟩
        · rintro ⟨⟩
        · rintro ⟨⟨⟩, object⟩
          exact absurd object other

/-- A text describes the flags that are in the object that is read from it, if a flag that is left
out is not set. -/
lemma exists_readObject (version : UInt32) {isFlag : Json → Bool → Prop}
    (absent : ∀ b, isFlag .null b ↔ b = false) {read done : Bool} :
    (∃ json, readObject version text = .ok json ∧ isFlag (json.field "read") read ∧
      isFlag (json.field "done") done) ↔ DescribesFlags isFlag text read done := by
  simp only [readObject_eq_ok]
  refine ⟨?_, ?_⟩
  · rintro ⟨json, ⟨rfl, rfl⟩ | ⟨parsed, object⟩, first, second⟩
    · exact .inl ⟨rfl, (absent _).mp first, (absent _).mp second⟩
    · exact .inr ⟨json, parsed, object, first, second⟩
  · rintro (⟨rfl, rfl, rfl⟩ | ⟨json, parsed, object, first, second⟩)
    · exact ⟨.null, .inl ⟨rfl, rfl⟩, (absent _).mpr rfl, (absent _).mpr rfl⟩
    · exact ⟨json, .inr ⟨parsed, object⟩, first, second⟩

/-- The flags of the first version are read exactly from truth values. -/
lemma ofText_zero_eq_ok :
    ofText 0 text = .ok state ↔
      ∃ read done, DescribesFlags IsTruth text read done ∧ state = ⟨0, read, done, []⟩ := by
  rw [ofText, if_pos rfl]
  simp only [bind_eq_ok, Field.named_eq_ok, pure_eq_ok, boolOr_eq_ok,
    ← exists_readObject 0 fun _ => isTruth_null]
  refine ⟨?_, ?_⟩
  · rintro ⟨json, object, read, first, done, second, rfl⟩
    exact ⟨read, done, ⟨json, object, first, second⟩, rfl⟩
  · rintro ⟨read, done, ⟨json, object, first, second⟩, rfl⟩
    exact ⟨json, object, read, first, done, second, rfl⟩

/-- The flags of the second version are read exactly from counts. -/
lemma ofText_one_eq_ok :
    ofText 1 text = .ok state ↔
      ∃ read done, DescribesFlags IsCount text read done ∧ state = ⟨1, read, done, []⟩ := by
  rw [ofText, if_neg (by decide), if_pos rfl]
  simp only [bind_eq_ok, Field.named_eq_ok, pure_eq_ok, ← exists_unsignedOr,
    ← exists_readObject 1 fun _ => isCount_null]
  refine ⟨?_, ?_⟩
  · rintro ⟨json, object, read, first, done, second, rfl⟩
    exact ⟨_, _, ⟨json, object, ⟨read, first, rfl⟩, ⟨done, second, rfl⟩⟩, rfl⟩
  · rintro ⟨_, _, ⟨json, object, ⟨read, first, rfl⟩, ⟨done, second, rfl⟩⟩, rfl⟩
    exact ⟨json, object, read, first, done, second, rfl⟩

/-- A text that is no object is a fault. -/
lemma fails_readObject (version : UInt32) (text : String) :
    FailsWith MailError.IsFault (readObject version text) := by
  rw [readObject]
  refine FailsWith.ite (.ok _) ?_
  cases Json.ofString? text with
  | none => exact .invalid _
  | some json => exact .ite (.ok _) (.invalid _)

/-- A text that tells no state is a fault. -/
lemma fails_ofText (version : UInt32) (text : String) :
    FailsWith MailError.IsFault (ofText version text) := by
  have flags {α : Type} (first second : String) (flag : Json → Except FieldError α)
      (state : α → α → MessageState) :
      FailsWith MailError.IsFault (do
        let json ← readObject version text
        let read ← Field.named first (flag (json.field "read"))
        let done ← Field.named second (flag (json.field "done"))
        return state read done) := by
    apply FailsWith.bind (fails_readObject _ _)
    intro json
    apply FailsWith.bind (.named _ _)
    intro read
    apply FailsWith.bind (.named _ _)
    intro done
    exact .ok _
  exact .ite (flags _ _ _ _) (.ite (flags _ _ _ _) (.ok _))

end MessageState

/-! ## Envelopes -/

namespace SealedState

open MessageState (DescribesFlags latestVersion)

/-- The bytes describe the state, for whoever has the key. -/
inductive Describes (key : SymmetricKey) : Bytes → MessageState → Prop
  /-- Without a version there is nothing to know, and the message is new. -/
  | short {b : Bytes} (short : b.length < 4) : Describes key b ⟨1, false, false, []⟩
  /-- What a later version says is not known, and the message is left alone. -/
  | later {version : UInt32} {rest : Bytes} (later : 1 < version) :
      Describes key (Bytes.ofUInt32 version ++ rest) ⟨version, true, true, []⟩
  /-- Nothing was written about a new message. -/
  | empty {version : UInt32} (known : version ≤ 1) :
      Describes key (Bytes.ofUInt32 version) ⟨version, false, false, []⟩
  /-- The vector is known and not sent. -/
  | fixed {body : Bytes} {text : String} {read done : Bool}
      (opened : key.decrypt SymmetricKey.stateIv body = .ok (.ofString text))
      (flags : DescribesFlags Field.IsTruth text read done) :
      Describes key (Bytes.ofUInt32 0 ++ body) ⟨0, read, done, []⟩
  /-- The vector was drawn and is in front. -/
  | drawn {body : Bytes} {text : String} {read done : Bool}
      (opened : key.decryptPrepended SymmetricKey.randomIvSize body = .ok (.ofString text))
      (flags : DescribesFlags Field.IsCount text read done) :
      Describes key (Bytes.ofUInt32 1 ++ body) ⟨1, read, done, []⟩

variable {key : SymmetricKey} {b : Bytes} {state : MessageState}

/-- A state that was decrypted is described by its envelope. -/
lemma Describes.of_decrypt (h : decrypt ⟨b, key⟩ = .ok state) : Describes key b state := by
  cases parts : Bytes.readUInt32? b with
  | none =>
    have short := Bytes.readUInt32?_eq_none.mp parts
    rw [decrypt_of_short short] at h
    cases h
    exact .short short
  | some parts' =>
    obtain ⟨version, body⟩ := parts'
    obtain rfl := Bytes.readUInt32?_eq_some.mp parts
    by_cases known : version ≤ latestVersion
    · obtain ⟨text, opened, described⟩ := (decrypt_known known).mp h
      obtain rfl | rfl := MessageState.eq_zero_or_one known
      · obtain ⟨read, done, flags, rfl⟩ := MessageState.ofText_zero_eq_ok.mp described
        exact .fixed opened flags
      · obtain ⟨read, done, flags, rfl⟩ := MessageState.ofText_one_eq_ok.mp described
        exact .drawn opened flags
    · have later : latestVersion < version := UInt32.not_le.mp known
      rw [decrypt_later later] at h
      cases h
      exact .later later

/-- An envelope is decrypted to the state that it describes. -/
lemma Describes.decrypt (h : Describes key b state) : decrypt ⟨b, key⟩ = .ok state := by
  cases h with
  | short short => exact decrypt_of_short short key
  | later later => exact decrypt_later later _ key
  | @empty version known =>
    rw [← List.append_nil (Bytes.ofUInt32 version)]
    obtain rfl | rfl := MessageState.eq_zero_or_one known
    · exact (decrypt_known known).mpr ⟨"", rfl, rfl⟩
    · exact (decrypt_known known).mpr ⟨"", rfl, rfl⟩
  | fixed opened flags =>
    have described := MessageState.ofText_zero_eq_ok.mpr ⟨_, _, flags, rfl⟩
    exact (decrypt_known (by decide)).mpr ⟨_, opened, described⟩
  | drawn opened flags =>
    have described := MessageState.ofText_one_eq_ok.mpr ⟨_, _, flags, rfl⟩
    exact (decrypt_known UInt32.le_rfl).mpr ⟨_, opened, described⟩

/-- The version is told without opening the envelope, and deliveries are never told. -/
lemma Describes.version_eq (h : Describes key b state) :
    version ⟨b, key⟩ = state.version ∧ state.delivery = [] := by
  cases h with
  | short short =>
    rw [version, Bytes.readUInt32?_eq_none.mpr short]
    exact ⟨rfl, rfl⟩
  | @empty version known =>
    rw [SealedState.version, ← List.append_nil (Bytes.ofUInt32 version), Bytes.readUInt32?_append]
    exact ⟨rfl, rfl⟩
  | _ =>
    rw [version, Bytes.readUInt32?_append]
    exact ⟨rfl, rfl⟩

/-- An envelope that cannot be opened is a fault. -/
lemma fails_text (sealed : SealedState) : FailsWith MailError.IsFault sealed.text := by
  rw [text]
  cases Bytes.readUInt32? sealed.bytes with
  | none => exact .ok _
  | some parts =>
    obtain ⟨version, body⟩ := parts
    apply FailsWith.ite
    · cases decryptBody sealed.key version body with
      | error cause => exact .invalid _
      | ok plain =>
        cases text : Bytes.toString? plain with
        | none => simpa only [text] using .invalid _
        | some text' => simpa only [text] using .ok _
    · exact .ok _

/-- An envelope that tells no state is a fault. -/
lemma fails_decrypt (sealed : SealedState) : FailsWith MailError.IsFault sealed.decrypt := by
  apply FailsWith.bind sealed.fails_text
  intro told
  exact MessageState.fails_ofText _ _

/-- An envelope is opened exactly if it follows the schema, with what it describes; everything else
is refused as invalid. The version in front is the version of what is opened, and no deliveries are
found in it. With a whole key every state is written, and opened again without its deliveries. Any
text at all is written in the latest version, behind a vector and in front of a tag, unless the
whole is longer than 1024 bytes. -/
theorem opened_iff_described (key : SymmetricKey) :
    (∀ b state, decrypt ⟨b, key⟩ = .ok state ↔ Describes key b state) ∧
    (∀ b e, decrypt ⟨b, key⟩ = .error e → ∃ fault, e = .invalid fault) ∧
    (∀ b state, decrypt ⟨b, key⟩ = .ok state →
      version ⟨b, key⟩ = state.version ∧ state.delivery = []) ∧
    (key.bytes.length = SymmetricKey.size →
      ∀ (read done : Bool) (delivery : List Delivery) (entropy : Entropy),
        ∃ envelope entropy',
          encryptRandom (.ofString (MessageState.toText read done delivery)) key entropy =
            .ok (envelope, entropy') ∧
          decrypt ⟨envelope, key⟩ = .ok ⟨1, read, done, []⟩) ∧
    (key.bytes.length = SymmetricKey.size → ∀ (text : Bytes) (entropy : Entropy),
      ∃ body, body.length = (if text = [] then 0 else text.length + 32) ∧
        key.encryptPrepended (entropy.draw SymmetricKey.randomIvSize).1 text = .ok body ∧
        encryptRandom text key entropy =
          if 4 + body.length ≤ 1024 then
            .ok (Bytes.ofUInt32 1 ++ body, (entropy.draw SymmetricKey.randomIvSize).2)
          else .error (.invalid (.tooLarge .metadata (4 + body.length)))) := by
  refine ⟨fun b state => ⟨Describes.of_decrypt, Describes.decrypt⟩, fun b => fails_decrypt ⟨b, key⟩,
    fun b state opened => (Describes.of_decrypt opened).version_eq, ?_, ?_⟩
  · intro whole read done delivery entropy
    obtain ⟨envelope, entropy', made⟩ := exists_encryptRandom read done delivery whole entropy
    exact ⟨envelope, entropy', made, decrypt_of_encryptRandom made⟩
  · intro whole text entropy
    obtain ⟨body, encrypted, length⟩ := exists_body whole text entropy
    exact ⟨body, length, encrypted, encryptRandom_eq encrypted⟩

/-- A message that was read but is not done with, one of a later version, and a text that is one
byte too long. -/
theorem opened_iff_described_read :
    let key : SymmetricKey := ⟨List.replicate 32 0⟩
    (∃ envelope entropy',
      encryptRandom (.ofString (MessageState.toText true false [])) key (.ofSeed 1) =
        .ok (envelope, entropy') ∧
      Describes key envelope ⟨1, true, false, []⟩) ∧
    decrypt ⟨Bytes.ofUInt32 7 ++ [1, 2, 3], key⟩ = .ok ⟨7, true, true, []⟩ ∧
    encryptRandom (List.replicate 989 0) key (.ofSeed 1) =
      .error (.invalid (.tooLarge .metadata 1025)) := by
  intro key
  obtain ⟨opened, _, _, written, sized⟩ := opened_iff_described key
  refine ⟨?_, ?_, ?_⟩
  · obtain ⟨envelope, entropy', made, again⟩ := written rfl true false [] (.ofSeed 1)
    exact ⟨envelope, entropy', made, (opened _ _).mp again⟩
  · exact (opened _ _).mpr (.later (by decide))
  · obtain ⟨body, length, _, made⟩ := sized rfl (List.replicate 989 0) (.ofSeed 1)
    rw [if_neg (by simp), List.length_replicate] at length
    rw [made, length]
    rfl

end SealedState

end SealedMail
