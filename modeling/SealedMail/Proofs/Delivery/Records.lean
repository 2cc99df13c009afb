import Mathlib.Data.List.Perm.Basic
import SealedMail.Delivery.Record
import SealedMail.Proofs.Delivery.Order
import SealedMail.Proofs.Json.Objects
import SealedMail.Proofs.Schema

/-!
# Deliveries read back

Records of deliveries are written into an object under the addresses of their recipients, so that
the object has the last record of each recipient (`Delivery.latest`, `Delivery.perm_putAll`). Each
record is read back as it was written (`Delivery.readRecord_entry`), and sorting does away with the
order of the object. So reading what was written gives the last records, in order
(`Delivery.latest_read_back`).

Reading takes one record after the other and does not compare recipients: two names that differ in
letter case only are read as two records of one recipient, and only one of them is written again
(`Delivery.records_kept_iff`).
-/

namespace SealedMail

namespace Delivery

variable {list other entries : List Delivery} {delivery : Delivery} {recipient : Address}

/-! ## The last records -/

/-- The last record of a recipient. -/
def last? (recipient : Address) (list : List Delivery) : Option Delivery :=
  (list.filter fun delivery => delivery.recipient = recipient).getLast?

/-- The records that no other record of their recipient follows. -/
def latest : List Delivery → List Delivery
  | [] => []
  | delivery :: rest =>
    if delivery.recipient ∈ rest.map Delivery.recipient then latest rest
    else delivery :: latest rest

/-- The first record for a recipient counts only if no later one does. -/
lemma last?_cons (recipient : Address) (delivery : Delivery) (rest : List Delivery) :
    last? recipient (delivery :: rest) =
      if delivery.recipient = recipient then some ((last? recipient rest).getD delivery)
      else last? recipient rest := by
  rw [last?, List.filter_cons]
  by_cases same : delivery.recipient = recipient
  · rw [if_pos (decide_eq_true same), if_pos same, List.getLast?_cons]
    rfl
  · rw [if_neg (by simpa using same), if_neg same]
    rfl

/-- There is no last record only for somebody who has none. -/
lemma last?_eq_none : last? recipient list = none ↔ recipient ∉ list.map Delivery.recipient := by
  simp [last?]

/-- The latest records are the last ones of their recipients. -/
lemma mem_latest : delivery ∈ latest list ↔ last? delivery.recipient list = some delivery := by
  induction list with
  | nil => simp [latest, last?]
  | cons first rest ih =>
    rw [latest, last?_cons]
    by_cases same : first.recipient = delivery.recipient
    · rw [if_pos same, same]
      by_cases follows : delivery.recipient ∈ rest.map Delivery.recipient
      · obtain ⟨last, h⟩ :=
          Option.ne_none_iff_exists'.mp (mt last?_eq_none.mp (not_not_intro follows))
        rw [if_pos follows, ih, h, Option.getD_some]
      · rw [if_neg follows, List.mem_cons, ih, last?_eq_none.mpr follows, Option.getD_none,
          Option.some.injEq, eq_comm]
        exact or_iff_left nofun
    · rw [if_neg same, ← ih]
      split
      · rfl
      · rw [List.mem_cons]
        exact or_iff_right fun eq => same (congrArg Delivery.recipient eq).symm

/-- The latest records stand in the order of all. -/
lemma sublist_latest (list : List Delivery) : (latest list).Sublist list := by
  induction list with
  | nil => exact .slnil
  | cons first rest ih =>
    rw [latest]
    split
    · exact ih.cons _
    · exact ih.cons_cons _

/-- Each recipient has one latest record. -/
lemma nodup_latest (list : List Delivery) : ((latest list).map Delivery.recipient).Nodup := by
  induction list with
  | nil => exact .nil
  | cons first rest ih =>
    rw [latest]
    split
    next => exact ih
    next follows =>
      rw [List.map_cons, List.nodup_cons]
      exact ⟨fun mem => follows (((sublist_latest rest).map _).subset mem), ih⟩

/-- Records of different recipients are all latest ones. -/
lemma latest_of_nodup (distinct : (list.map Delivery.recipient).Nodup) : latest list = list := by
  induction list with
  | nil => rfl
  | cons first rest ih =>
    obtain ⟨first_ne, distinct⟩ := List.nodup_cons.mp distinct
    rw [latest, if_neg first_ne, ih distinct]

/-- The latest records depend only on what is last for each recipient. -/
lemma perm_latest (same : ∀ recipient, last? recipient list = last? recipient other) :
    (latest list).Perm (latest other) := by
  refine (List.perm_ext_iff_of_nodup (nodup_latest list).of_map (nodup_latest other).of_map).mpr ?_
  intro delivery
  rw [mem_latest, mem_latest, same]

/-! ## Writing -/

/-- The field in which a record is written. -/
def entry (delivery : Delivery) : String × Json :=
  (delivery.recipient.text, recordJson delivery.state)

/-- The document has an entry for each record, and the last one for a name counts. -/
lemma toJson_eq (list : List Delivery) : toJson list = .object (Json.putAll (list.map entry) []) :=
  rfl

/-- The names under which records are written. -/
def names (list : List Delivery) : List String := list.map fun delivery => delivery.recipient.text

/-- The names in the document are those of the recipients. -/
lemma text_mem_names : recipient.text ∈ names list ↔ recipient ∈ list.map Delivery.recipient := by
  simp only [names, List.mem_map, Address.text_inj]

/-- Records that are written one after the other leave the last one of each recipient, beside what
was written for others before. -/
lemma perm_putAll (list : List Delivery) {done : List (String × Json)} (sorted : Json.Sorted done) :
    (Json.putAll (list.map entry) done).Perm
      ((latest list).map entry ++ done.filter fun field => field.1 ∉ names list) := by
  induction list generalizing done with
  | nil => simp [Json.putAll, latest, names]
  | cons first rest ih =>
    have others : (done.filter (·.1 ≠ first.recipient.text)).filter (·.1 ∉ names rest) =
        done.filter (·.1 ∉ names (first :: rest)) := by
      rw [List.filter_filter]
      refine List.filter_congr fun field _ => ?_
      simp [names, Bool.and_comm]
    have later := (ih (Json.pairwise_put _ (recordJson first.state) sorted)).trans
      (((Json.perm_put first.recipient.text _ sorted).filter _).append_left _)
    rw [List.filter_cons, others] at later
    refine List.Perm.trans later ?_
    rw [latest]
    -- the record is put first, and is overwritten if another one of its recipient follows
    by_cases follows : first.recipient ∈ rest.map Delivery.recipient
    · have overwritten := text_mem_names.mpr follows
      rw [if_pos follows, if_neg (by simpa using overwritten)]
    · have stays := mt text_mem_names.mp follows
      rw [if_neg follows, if_pos (by simpa using stays)]
      exact List.perm_middle

/-- What is written are the last records, in some order. -/
lemma perm_toJson (list : List Delivery) :
    ∃ fields, toJson list = .object fields ∧ ((latest list).map entry).Perm fields := by
  refine ⟨_, toJson_eq list, List.Perm.symm ?_⟩
  have written : (Json.putAll (list.map entry) []).Perm _ := perm_putAll list .nil
  rw [List.filter_nil, List.append_nil] at written
  exact written

/-! ## Reading -/

/-- The holder of a claim, if there is one, has a name. -/
def NamesHolder (delivery : Delivery) : Prop :=
  ∀ lock, delivery.state.lock? = some lock → lock.holder ≠ ""

/-- A claim is read from a holder and a date. -/
lemma readLock_eq_ok {json : Json} {lock : DeliveryLock} :
    readLock json = .ok (some lock) ↔
      Field.IsText (json.field "holder") lock.holder ∧
        Field.IsDate (json.field "expires") lock.expires := by
  cases json with
  | null => exact ⟨nofun, nofun⟩
  | _ =>
    simp only [readLock, bind_eq_ok, pure_eq_ok, Field.string_false_eq_ok, Field.date_eq_ok,
      Option.some.injEq]
    refine ⟨?_, ?_⟩
    · rintro ⟨holder, text, expires, date, rfl⟩
      exact ⟨text, date⟩
    · rintro ⟨text, date⟩
      exact ⟨lock.holder, text, lock.expires, date, rfl⟩

/-- A state is read back from its record, if its holder has a name. -/
lemma readState_recordJson {state : DeliveryState}
    (named : ∀ lock, state.lock? = some lock → lock.holder ≠ "") :
    readState (recordJson state) = .ok state := by
  cases state with
  | unsent lock =>
    cases lock with
    | none =>
      simp [readState, recordJson, detailFields, Json.field_ofFields, Json.lookup_cons_eq_ite,
        DeliveryState.name, readLock]
    | some lock =>
      have read : readLock (.ofFields
          [("holder", .string lock.holder), ("expires", .string lock.expires.render)]) =
          .ok (some lock) := by
        refine readLock_eq_ok.mpr ⟨⟨?_, named lock rfl⟩, lock.expires.render, ?_,
          DateTime.ofString?_render _⟩
        · simp [Json.field_ofFields, Json.lookup_cons_eq_ite]
        · simp [Json.field_ofFields]
      simp [readState, recordJson, detailFields, Json.field_ofFields, Json.lookup_cons_eq_ite,
        DeliveryState.name, read]
  | delivered date =>
    simp [readState, recordJson, detailFields, Json.field_ofFields, Json.lookup_cons_eq_ite,
      DeliveryState.name]
  | failed date reason =>
    have nonempty : reason.name ≠ "" := by cases reason <;> decide
    simp [readState, recordJson, detailFields, Json.field_ofFields, Json.lookup_cons_eq_ite,
      DeliveryState.name, readReason, DeliveryReason.ofName?_name, nonempty]

/-- A claim without a holder is not read. -/
lemma holder_of_readState {record : Json} {state : DeliveryState}
    (read : readState record = .ok state) :
    ∀ lock, state.lock? = some lock → lock.holder ≠ "" := by
  intro lock there
  cases state with
  | delivered date => cases there
  | failed date reason => cases there
  | unsent lock' =>
    obtain rfl : lock' = some lock := there
    rw [readState, bind_eq_ok] at read
    obtain ⟨word, _, read⟩ := read
    split at read
    · obtain ⟨_, read, same⟩ := bind_eq_ok.mp read
      cases pure_eq_ok.mp same
      exact (readLock_eq_ok.mp read).1.2
    -- the other words give states without a claim
    · split at read
      · simp at read
      · split at read
        · simp at read
        · cases read

/-- A record is read for an address and a state. -/
lemma ofRecord_eq_ok {name : String} {record : Json} :
    ofRecord name record = .ok delivery ↔
      Address.ofString? name = some delivery.recipient ∧ readState record = .ok delivery.state := by
  simp only [ofRecord, bind_eq_ok, pure_eq_ok, Field.addressOfString_eq_ok]
  refine ⟨?_, ?_⟩
  · rintro ⟨address, spelled, state, read, rfl⟩
    exact ⟨spelled, read⟩
  · rintro ⟨spelled, read⟩
    exact ⟨_, spelled, _, read, rfl⟩

/-- A record is read from an object for an address and a state. -/
lemma readRecord_eq_ok {name : String} {record : Json} :
    readRecord name record = .ok delivery ↔
      record.isObject = true ∧ Address.ofString? name = some delivery.recipient ∧
        readState record = .ok delivery.state := by
  rw [readRecord, ← ofRecord_eq_ok]
  split
  next isObject =>
    cases ofRecord name record with
    | ok d => simp [isObject]
    | error e => simp
  next other => simp [other]

/-- A record is read back as it was written. -/
lemma readRecord_entry (named : NamesHolder delivery) :
    readRecord (entry delivery).1 (entry delivery).2 = .ok delivery :=
  readRecord_eq_ok.mpr ⟨rfl, Address.ofString?_text _, readState_recordJson named⟩

/-! ## Objects -/

/-- The records of an object are read as these. -/
def Reads (records : List (String × Json)) (entries : List Delivery) : Prop :=
  List.Forall₂ (fun record delivery => readRecord record.1 record.2 = .ok delivery) records entries

variable {records records' : List (String × Json)}

/-- Records are read from null or from an object of them, and are put in order. -/
lemma ofJson_eq_ok {json : Json} :
    ofJson json = .ok list ↔
      (json = .null ∧ list = []) ∨
        ∃ records entries,
          json = .object records ∧ Reads records entries ∧ list = sort entries := by
  cases json with
  | null => simp [ofJson, eq_comm]
  | object records => simp [ofJson, mapM_eq_ok, Reads]
  | _ => simp [ofJson]

/-- Records in another order are read as the same entries in another order. -/
lemma Reads.perm (reads : Reads records entries) (perm : records'.Perm records) :
    ∃ entries', Reads records' entries' ∧ entries'.Perm entries :=
  List.perm_comp_forall₂ perm reads

/-- No record is read whose holder has no name. -/
lemma Reads.namesHolder (reads : Reads records entries) :
    ∀ delivery ∈ entries, NamesHolder delivery := by
  induction reads with
  | nil => exact List.forall_mem_nil _
  | cons read _ ih =>
    exact List.forall_mem_cons.mpr ⟨holder_of_readState (readRecord_eq_ok.mp read).2.2, ih⟩

/-- Every name spells the recipient of its record. -/
lemma Reads.recipients (reads : Reads records entries) :
    (records.map fun record => Address.ofString? record.1) =
      (entries.map Delivery.recipient).map some := by
  induction reads with
  | nil => rfl
  | cons read _ ih =>
    rw [List.map_cons, List.map_cons, List.map_cons, ih, (readRecord_eq_ok.mp read).2.1]

/-- The entries for records are read as these. -/
lemma reads_map_entry (named : ∀ delivery ∈ list, NamesHolder delivery) :
    Reads (list.map entry) list :=
  List.forall₂_map_left_iff.mpr
    (List.forall₂_same.mpr fun delivery mem => readRecord_entry (named delivery mem))

/-- What is written for records is read as the latest of them, in order. -/
lemma ofJson_toJson (named : ∀ delivery ∈ latest list, NamesHolder delivery) :
    ofJson (toJson list) = .ok (sort (latest list)) := by
  obtain ⟨fields, written, perm⟩ := perm_toJson list
  obtain ⟨entries, reads, perm'⟩ := (reads_map_entry named).perm perm.symm
  rw [written]
  exact ofJson_eq_ok.mpr (.inr ⟨fields, entries, rfl, reads,
    sort_congr (nodup_latest list) perm'.symm⟩)

/-- Where everything that was written is read again there was one record for each recipient. -/
lemma nodup_of_kept (named : ∀ delivery ∈ latest list, NamesHolder delivery)
    (kept : ofJson (toJson list) = .ok list) : (list.map Delivery.recipient).Nodup := by
  have same := Except.ok.inj ((ofJson_toJson named).symm.trans kept)
  rw [← same]
  exact nodup_sort (nodup_latest list)

/-- Deliveries that are written and read again are the last ones of their recipients, in order, with
everything that was in them. So the order in which they are written does not matter, as long as the
last one of each recipient is the same; and writing and reading them once more changes nothing. -/
theorem latest_read_back {list : List Delivery}
    (named : ∀ delivery ∈ list, NamesHolder delivery) :
    ofJson (toJson list) = .ok (sort (latest list)) ∧
      ((latest list).map Delivery.recipient).Nodup ∧
      (∀ delivery, delivery ∈ latest list ↔ last? delivery.recipient list = some delivery) ∧
      (∀ other, (∀ recipient, last? recipient other = last? recipient list) →
        ofJson (toJson other) = .ok (sort (latest list))) ∧
      ofJson (toJson (sort (latest list))) = .ok (sort (latest list)) := by
  have distinct := nodup_latest list
  have kept : ∀ delivery ∈ latest list, NamesHolder delivery := fun delivery mem =>
    named delivery ((sublist_latest list).subset mem)
  refine ⟨ofJson_toJson kept, distinct, fun _ => mem_latest, fun other same => ?_, ?_⟩
  · have perm := perm_latest same
    rw [← sort_congr (nodup_latest other) perm]
    exact ofJson_toJson fun delivery mem => kept delivery (perm.mem_iff.mp mem)
  · have whole : latest (sort (latest list)) = sort (latest list) :=
      latest_of_nodup (nodup_sort distinct)
    have again : ofJson (toJson (sort (latest list))) = _ := ofJson_toJson (by
      rw [whole]
      exact fun delivery mem => kept delivery ((perm_sort _).mem_iff.mp mem))
    rwa [whole, sort_of_pairwise (pairwise_sort _)] at again

/-- Of two records of bob the later one counts, whichever of them the order puts first. -/
theorem latest_read_back_twice :
    let bob : Address := ⟨"bob", "example.org", by decide, by decide⟩
    let delivered : Delivery := ⟨bob, .delivered ⟨⟨2024, 1, 2, 0, 0, 0, 0, 0⟩, by decide⟩⟩
    let unsent : Delivery :=
      ⟨bob, .unsent (some ⟨"phone", ⟨⟨2024, 1, 3, 0, 0, 0, 0, 60⟩, by decide⟩⟩)⟩
    (∀ delivery ∈ [unsent, delivered], NamesHolder delivery) ∧
      last? bob [delivered, unsent, delivered] = last? bob [unsent, delivered] ∧
      ofJson (toJson [unsent, delivered]) = .ok (sort [delivered]) ∧
      ofJson (toJson [delivered, unsent, delivered]) = .ok (sort [delivered]) := by
  intro bob delivered unsent
  have named : ∀ delivery ∈ [unsent, delivered], NamesHolder delivery := by
    simp [NamesHolder, unsent, delivered, DeliveryState.lock?]
  have same (recipient : Address) :
      last? recipient [delivered, unsent, delivered] = last? recipient [unsent, delivered] := by
    simp only [last?_cons]
    split <;> rfl
  obtain ⟨read, _, _, other, _⟩ := latest_read_back named
  exact ⟨named, same bob, read, other _ same⟩

/-- No two names of the object spell one address. -/
def NamesDiffer : Json → Prop
  | .object records => (records.map fun record => Address.ofString? record.1).Nodup
  | _ => True

/-- Deliveries that were read are in order. There is at most one for each recipient exactly if no
two names of the object spell one address; the order is strict then, and writing them keeps them
all. Otherwise only the last one of each recipient is written, and the others are lost. -/
theorem records_kept_iff {json : Json} {list : List Delivery} (read : ofJson json = .ok list) :
    (list.Pairwise fun a b => (a.compare b).isLE = true) ∧
      ((list.map Delivery.recipient).Nodup ↔ NamesDiffer json) ∧
      (NamesDiffer json → list.Pairwise fun a b => a.compare b = .lt) ∧
      ofJson (toJson list) = .ok (sort (latest list)) ∧
      (ofJson (toJson list) = .ok list ↔ NamesDiffer json) := by
  obtain ⟨sorted, named, distinct⟩ :
      (list.Pairwise fun a b => (a.compare b).isLE = true) ∧
        (∀ delivery ∈ list, NamesHolder delivery) ∧
        ((list.map Delivery.recipient).Nodup ↔ NamesDiffer json) := by
    obtain ⟨rfl, rfl⟩ | ⟨records, entries, rfl, reads, rfl⟩ := ofJson_eq_ok.mp read
    · exact ⟨.nil, List.forall_mem_nil _, iff_of_true .nil trivial⟩
    · refine ⟨pairwise_sort entries, fun delivery mem => ?_, ?_⟩
      · exact reads.namesHolder delivery ((perm_sort entries).mem_iff.mp mem)
      · rw [((perm_sort entries).map Delivery.recipient).nodup_iff, NamesDiffer, reads.recipients]
        exact (List.nodup_map_iff (Option.some_injective _)).symm
  have kept : ∀ delivery ∈ latest list, NamesHolder delivery := fun delivery mem =>
    named delivery ((sublist_latest list).subset mem)
  have written := ofJson_toJson kept
  refine ⟨sorted, distinct, fun differ => pairwise_lt (distinct.mpr differ) sorted, written, ?_⟩
  rw [← distinct]
  refine ⟨nodup_of_kept kept, fun nodup => ?_⟩
  rw [written, latest_of_nodup nodup, sort_of_pairwise sorted]

section SpelledTwice

/-- An account that an object names in two ways. -/
def bob : Address := ⟨"bob", "example.org", by decide, by decide⟩

def deliveredToBob : Delivery := ⟨bob, .delivered ⟨⟨2024, 1, 2, 0, 0, 0, 0, 0⟩, by decide⟩⟩

def unsentToBob : Delivery := ⟨bob, .unsent none⟩

def bobTwice : Json := .object
  [("BOB#example.org", recordJson deliveredToBob.state),
    ("bob#example.org", recordJson unsentToBob.state)]

/-- Neither of the records for Bob has a holder. -/
lemma namesHolder_toBob : ∀ delivery ∈ [deliveredToBob, unsentToBob], NamesHolder delivery := by
  simp [NamesHolder, deliveredToBob, unsentToBob, DeliveryState.lock?]

/-- Both spellings of Bob are read. -/
lemma ofJson_bobTwice : ofJson bobTwice = .ok (sort [deliveredToBob, unsentToBob]) := by
  have upper : Address.ofString? "BOB#example.org" = some bob := rfl
  have lower : Address.ofString? "bob#example.org" = some bob := rfl
  obtain ⟨delivered, unsent⟩ := List.forall_mem_cons.mp namesHolder_toBob
  refine ofJson_eq_ok.mpr (.inr ⟨_, _, rfl, .cons ?_ (.cons ?_ .nil), rfl⟩)
  · exact readRecord_eq_ok.mpr ⟨rfl, upper, readState_recordJson delivered⟩
  · exact readRecord_eq_ok.mpr
      ⟨rfl, lower, readState_recordJson (List.forall_mem_singleton.mp unsent)⟩

end SpelledTwice

/-- Two names of one account are read as two records, and only one of them is written again. -/
theorem records_kept_iff_spelled_twice :
    let list := sort [deliveredToBob, unsentToBob]
    ofJson bobTwice = .ok list ∧ ((list.map Delivery.recipient).Nodup ↔ NamesDiffer bobTwice) ∧
      (ofJson (toJson list) = .ok list ↔ NamesDiffer bobTwice) := by
  obtain ⟨_, distinct, _, _, kept⟩ := records_kept_iff ofJson_bobTwice
  exact ⟨ofJson_bobTwice, distinct, kept⟩

/-- A record is lost when what was read is written and read again. -/
theorem record_of_bob_lost :
    let list := sort [deliveredToBob, unsentToBob]
    ofJson bobTwice = .ok list ∧ ¬ (list.map Delivery.recipient).Nodup ∧
      ofJson (toJson list) ≠ .ok list := by
  intro list
  have twice : ¬ (list.map Delivery.recipient).Nodup := by
    rw [((perm_sort _).map Delivery.recipient).nodup_iff]
    decide
  have named : ∀ delivery ∈ latest list, NamesHolder delivery := fun delivery mem =>
    namesHolder_toBob delivery ((perm_sort _).mem_iff.mp ((sublist_latest list).subset mem))
  exact ⟨ofJson_bobTwice, twice, mt (nodup_of_kept named) twice⟩

end Delivery

end SealedMail
