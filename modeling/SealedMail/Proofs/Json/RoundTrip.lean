import SealedMail.Proofs.Json.Literals
import SealedMail.Proofs.Json.Objects

/-!
# JSON read back from its text

Reading undoes printing. A value fits a number of levels (`Fits`) if its arrays and objects are not
nested deeper, the fields of its objects are in order, and its numbers are integers of 64 bits;
every value that is written as an envelope or a body is of this kind.

The compact text of such a value is a document (`Fits.reads`), for any text behind it at which a
value can end, and the value of this document is the value that was printed
(`Fits.ofDocument?_toDocument`). Both are inductions over the levels of the value. Together they
give the main statement `Fits.ofBytes?_toBytes`.
-/

namespace SealedMail.Json

/-- The value is nested at most so many levels deep, its objects have their fields in order, and
its numbers are integers of 64 bits. -/
inductive Fits : Nat → Json → Prop where
  | null {room} : Fits room .null
  | bool {room} (b : Bool) : Fits room (.bool b)
  | integer {room} {n : Int} : -0x8000000000000000 ≤ n → n < 0x10000000000000000 → Fits room (.integer n)
  | string {room} (s : String) : Fits room (.string s)
  | array {room items} : (∀ item ∈ items, Fits room item) → Fits (room + 1) (.array items)
  | object {room} {fields : List (String × Json)} :
    Sorted fields →
    (∀ field ∈ fields, Fits room field.2) →
    Fits (room + 1) (.object fields)

/-- A value fits more levels than it needs. -/
lemma Fits.mono {room more : Nat} {json : Json} (h : Fits room json) (le : room ≤ more) :
    Fits more json := by
  induction h generalizing more with
  | null => exact .null
  | bool b => exact .bool b
  | integer low high => exact .integer low high
  | string s => exact .string s
  | array _ ih =>
    obtain ⟨more, rfl⟩ : ∃ n, more = n + 1 := ⟨more - 1, by omega⟩
    exact .array fun item hitem => ih item hitem (by omega)
  | object sorted _ ih =>
    obtain ⟨more, rfl⟩ : ∃ n, more = n + 1 := ⟨more - 1, by omega⟩
    exact .object sorted fun field hfield => ih field hfield (by omega)

mutual

/-- The document as which the text of a value is read back. -/
def toDocument : Json → Document
  | .null => .null
  | .bool b => .bool b
  | .integer n => .number (decimalNumeral n)
  | .real n => .number n
  | .string s => .string (s.toList.map charUnit)
  | .array items => .array (itemDocuments items)
  | .object fields => .object (fieldDocuments fields)

def itemDocuments : List Json → List Document
  | [] => []
  | item :: rest => toDocument item :: itemDocuments rest

def fieldDocuments : List (String × Json) → List (List TextUnit × Document)
  | [] => []
  | (name, value) :: rest => (name.toList.map charUnit, toDocument value) :: fieldDocuments rest

end

/-! ## From text to document -/

namespace Document

/-- The text of the value is read as its document, wherever a value can end. Two steps of reading
cost at most one character, so twice the length of the text is enough fuel. -/
def Reads (json : Json) : Prop :=
  ∀ (fuel : Nat) (rest : List Char), 2 * (chars json).length ≤ fuel → Ends rest →
    document fuel (chars json ++ rest) = some (toDocument json, rest)

/-- A character that can begin a value is no blank and ends no array. -/
def Begins (c : Char) : Prop := isBlank c = false ∧ c ≠ ']'

/-- Nothing is skipped before a character that is no blank. -/
lemma skipBlank_cons {c : Char} (h : isBlank c = false) (rest : List Char) :
    skipBlank (c :: rest) = c :: rest := by
  simp [skipBlank, h]

/-- A digit or minus sign is none of the other marks. -/
lemma digit_ne {c d : Char} (h : c.isDigit = true ∨ c = '-') (other : d.isDigit = false ∧ d ≠ '-') :
    c ≠ d := by
  rintro rfl
  rcases h with digit | sign
  · exact absurd digit (by simp [other.1])
  · exact other.2 sign

/-- A value can begin with a digit or a minus sign. -/
lemma begins_of_digit {c : Char} (h : c.isDigit = true ∨ c = '-') : Begins c := by
  refine ⟨?_, digit_ne h (by decide)⟩
  simp [isBlank, digit_ne h (show ' '.isDigit = false ∧ ' ' ≠ '-' by decide),
    digit_ne h (show '\t'.isDigit = false ∧ '\t' ≠ '-' by decide),
    digit_ne h (show '\n'.isDigit = false ∧ '\n' ≠ '-' by decide),
    digit_ne h (show '\r'.isDigit = false ∧ '\r' ≠ '-' by decide)]

/-- What begins with a digit or a minus sign is a numeral. -/
lemma document_number {c : Char} (h : c.isDigit = true ∨ c = '-') (fuel : Nat)
    (rest : List Char) :
    document (fuel + 1) (c :: rest) =
      (numeral (c :: rest)).map fun (n, rest) => (.number n, rest) := by
  have n : c ≠ 'n' := digit_ne h (by decide)
  have t : c ≠ 't' := digit_ne h (by decide)
  have f : c ≠ 'f' := digit_ne h (by decide)
  have quote : c ≠ '"' := digit_ne h (by decide)
  have bracket : c ≠ '[' := digit_ne h (by decide)
  have brace : c ≠ '{' := digit_ne h (by decide)
  simp [document, skipBlank_cons (begins_of_digit h).1, n, t, f, quote, bracket, brace]

end Document

/-- An integer begins with a digit or a minus sign. -/
lemma decimal_eq_cons (n : Int) :
    ∃ c rest, decimal n = c :: rest ∧ (c.isDigit = true ∨ c = '-') := by
  cases n with
  | ofNat n =>
    cases front : Nat.toDigits 10 n with
    | nil => exact absurd front Nat.toDigits_ne_nil
    | cons c rest =>
      refine ⟨c, rest, front, .inl ?_⟩
      exact Nat.isDigit_of_mem_toDigits (b := 10) (n := n) (by decide) (by decide) (by simp [front])
  | negSucc n => exact ⟨'-', _, rfl, .inr rfl⟩

/-- The text of a value begins with a character that can begin a value. -/
lemma Fits.chars_eq_cons {room : Nat} {json : Json} (h : Fits room json) :
    ∃ c rest, chars json = c :: rest ∧ Document.Begins c := by
  cases h with
  | null => exact ⟨'n', _, rfl, by decide, by decide⟩
  | bool b =>
    cases b
    · exact ⟨'f', _, rfl, by decide, by decide⟩
    · exact ⟨'t', _, rfl, by decide, by decide⟩
  | integer =>
    rename_i n _ _
    obtain ⟨c, rest, eq, digit⟩ := decimal_eq_cons n
    exact ⟨c, rest, eq, Document.begins_of_digit digit⟩
  | string s => exact ⟨'"', _, rfl, by decide, by decide⟩
  | array =>
    rename_i items _
    cases items with
    | nil => exact ⟨'[', _, rfl, by decide, by decide⟩
    | cons item rest => exact ⟨'[', _, by rw [chars], by decide, by decide⟩
  | object =>
    rename_i fields _ _
    cases fields with
    | nil => exact ⟨'{', _, rfl, by decide, by decide⟩
    | cons field rest => exact ⟨'{', _, by rw [chars], by decide, by decide⟩

namespace Document

/-- The items of an array are read one by one. -/
lemma items_chars (items' : List Json) (item : Json) (reads : ∀ x ∈ item :: items', Reads x)
    (fuel : Nat) (rest : List Char) (done : List Document)
    (enough : 2 * ((chars item).length + (itemChars items').length) + 1 ≤ fuel) :
    items fuel (chars item ++ (itemChars items' ++ rest)) done =
      some (.array (done.reverse ++ toDocument item :: itemDocuments items'), rest) := by
  -- each item costs at least one character besides its text, which pays for the step to the next
  induction items' generalizing item fuel done with
  | nil =>
    obtain ⟨fuel, rfl⟩ : ∃ n, fuel = n + 1 := ⟨fuel - 1, by omega⟩
    have first := reads item (by simp) fuel (']' :: rest)
      (by simp [itemChars] at enough; omega) (ends_cons (by simp) rest)
    simp [items, itemChars, first, skipBlank, isBlank, itemDocuments]
  | cons next items' ih =>
    obtain ⟨fuel, rfl⟩ : ∃ n, fuel = n + 1 := ⟨fuel - 1, by omega⟩
    simp only [itemChars, List.length_cons, List.length_append] at enough
    have first := reads item (by simp) fuel (',' :: (chars next ++ (itemChars items' ++ rest)))
      (by omega) (ends_cons (by simp) _)
    have others := ih next (fun x hx => reads x (List.mem_cons_of_mem _ hx)) fuel
      (toDocument item :: done) (by omega)
    simp [items, itemChars, first, skipBlank, isBlank, itemDocuments, others]

/-- A quoted text begins and ends with a quotation mark. -/
lemma quote_append (name : String) (rest : List Char) :
    quote name ++ rest = '"' :: (name.toList.flatMap escapeChar ++ '"' :: rest) := by
  simp [quote]

/-- The fields of an object are read one by one. -/
lemma fields_chars (fields' : List (String × Json)) (name : String) (value : Json)
    (reads : ∀ x ∈ (name, value) :: fields', Reads x.2) (fuel : Nat) (rest : List Char)
    (done : List (List TextUnit × Document))
    (enough : 2 * ((chars value).length + (fieldChars fields').length) + 1 ≤ fuel) :
    fields fuel (quote name ++ ':' :: (chars value ++ (fieldChars fields' ++ rest))) done =
      some (.object (done.reverse ++ (name.toList.map charUnit, toDocument value) ::
        fieldDocuments fields'), rest) := by
  -- as for items; the name is read first and does not count
  induction fields' generalizing name value fuel done with
  | nil =>
    obtain ⟨fuel, rfl⟩ : ∃ n, fuel = n + 1 := ⟨fuel - 1, by omega⟩
    have readValue : Reads value := reads (name, value) (by simp)
    have first := readValue fuel ('}' :: rest)
      (by simp [fieldChars] at enough; omega) (ends_cons (by simp) rest)
    simp [fields, fieldChars, quote_append, first, skipBlank, isBlank, fieldDocuments,
      literal_flatMap_escapeChar]
  | cons next fields' ih =>
    obtain ⟨fuel, rfl⟩ : ∃ n, fuel = n + 1 := ⟨fuel - 1, by omega⟩
    obtain ⟨nextName, nextValue⟩ := next
    simp only [fieldChars, List.length_cons, List.length_append] at enough
    have readValue : Reads value := reads (name, value) (by simp)
    have first := readValue fuel
      (',' :: (quote nextName ++ ':' :: (chars nextValue ++ (fieldChars fields' ++ rest))))
      (by omega) (ends_cons (by simp) _)
    have others := ih nextName nextValue (fun x hx => reads x (List.mem_cons_of_mem _ hx))
      fuel ((name.toList.map charUnit, toDocument value) :: done) (by omega)
    rw [quote_append] at first others
    simp [fields, fieldChars, quote_append, first, skipBlank, isBlank, fieldDocuments,
      literal_flatMap_escapeChar, others]

end Document

/-- A value has a text, so that enough fuel to read it is not zero. -/
lemma Fits.reads_of_succ {room : Nat} {json : Json} (h : Fits room json)
    (step : ∀ (fuel : Nat) (rest : List Char), 2 * (chars json).length ≤ fuel + 1 →
      Ends rest →
        Document.document (fuel + 1) (chars json ++ rest) = some (toDocument json, rest)) :
    Document.Reads json := by
  intro fuel rest enough ends
  obtain ⟨c, first, eq, _⟩ := h.chars_eq_cons
  obtain ⟨fuel, rfl⟩ : ∃ n, fuel = n + 1 := ⟨fuel - 1, by simp [eq] at enough; omega⟩
  exact step fuel rest enough ends

/-- The text of a value is read as its document. -/
lemma Fits.reads {room : Nat} {json : Json} (h : Fits room json) : Document.Reads json := by
  induction h with
  | @null room => exact (Fits.null : Fits room .null).reads_of_succ fun _ _ _ _ => rfl
  | @bool room b =>
    refine (Fits.bool b : Fits room (.bool b)).reads_of_succ ?_
    intro fuel rest _ _
    cases b <;> rfl
  | @integer room n low high =>
    refine (Fits.integer low high : Fits room (.integer n)).reads_of_succ ?_
    intro fuel rest _ ends
    obtain ⟨c, digits, eq, digit⟩ := decimal_eq_cons n
    have number := Document.document_number digit fuel (digits ++ rest)
    -- the digits are read up to the end of the number, so something must end it
    rw [← List.cons_append, ← eq, Document.numeral_decimal n ends] at number
    simpa [chars, toDocument] using number
  | @string room s =>
    refine (Fits.string s : Fits room (.string s)).reads_of_succ ?_
    intro fuel rest _ _
    simp [chars, Document.quote_append, Document.document, Document.skipBlank, Document.isBlank,
      toDocument, Document.literal_flatMap_escapeChar]
  | @array room items hs ih =>
    refine (Fits.array hs).reads_of_succ ?_
    intro fuel rest enough _
    cases items with
    | nil => rfl
    | cons item items =>
      simp only [chars, List.length_cons, List.length_append] at enough
      -- behind a bracket the reader looks for the end of an empty array before it reads an item
      obtain ⟨c, first, eq, blank, notClosed⟩ := (hs item (by simp)).chars_eq_cons
      have read := Document.items_chars items item (fun x hx => ih x hx) fuel rest [] (by omega)
      simp only [eq, List.cons_append] at read
      have open_bracket : Document.isBlank '[' = false := by decide
      simp [chars, eq, Document.document, Document.skipBlank_cons open_bracket,
        Document.skipBlank_cons blank, notClosed, read, toDocument, itemDocuments]
  | @object room fields sorted hs ih =>
    refine (Fits.object sorted hs).reads_of_succ ?_
    intro fuel rest enough _
    cases fields with
    | nil => rfl
    | cons field fields =>
      obtain ⟨name, value⟩ := field
      simp only [chars, List.length_cons, List.length_append] at enough
      have read := Document.fields_chars fields name value (fun x hx => ih x hx) fuel rest []
        (by omega)
      rw [Document.quote_append] at read
      simp [chars, Document.quote_append, Document.document, Document.skipBlank,
        Document.isBlank, read, toDocument, fieldDocuments]

/-! ## From document to value -/

/-- Items are read back if each of them is. -/
lemma ofItems?_itemDocuments {room : Nat} {items : List Json}
    (h : ∀ item ∈ items, ofDocument? room (toDocument item) = some item) :
    ofItems? room (itemDocuments items) = some items := by
  induction items with
  | nil => rfl
  | cons item items ih =>
    have first := h item (by simp)
    have rest := ih fun x hx => h x (List.mem_cons_of_mem _ hx)
    simp [itemDocuments, ofItems?, first, rest]

/-- Fields are read back if the value of each is. -/
lemma ofPairs?_fieldDocuments {room : Nat} {fields : List (String × Json)}
    (h : ∀ field ∈ fields, ofDocument? room (toDocument field.2) = some field.2) :
    ofPairs? room (fieldDocuments fields) = some fields := by
  induction fields with
  | nil => rfl
  | cons field fields ih =>
    have first := h field (by simp)
    have rest := ih fun x hx => h x (List.mem_cons_of_mem _ hx)
    simp [fieldDocuments, ofPairs?, first, rest]

/-- A value that fits is read back from its document. -/
lemma Fits.ofDocument?_toDocument {room : Nat} {json : Json} (h : Fits room json) :
    ofDocument? room (toDocument json) = some json := by
  induction h with
  | null => rfl
  | bool b => rfl
  | integer low high => simp [toDocument, ofDocument?, ofNumeral?_decimalNumeral low high]
  | string s => simp [toDocument, ofDocument?]
  | array _ ih => simp [toDocument, ofDocument?, ofItems?_itemDocuments ih]
  | object sorted _ ih =>
    simp [toDocument, ofDocument?, ofPairs?_fieldDocuments ih, ofFields_eq sorted]

/-- Reading the text of a value gives the value. -/
theorem Fits.ofString?_render {json : Json} (h : Fits maxDepth json) :
    ofString? (render json) = some json := by
  have read := h.reads (2 * (chars json).length + 2) [] (by omega) ends_nil
  rw [List.append_nil] at read
  have blank : Document.skipBlank [] = [] := rfl
  simp [ofString?, Document.ofString?, Document.ofChars?, render, read, blank,
    h.ofDocument?_toDocument]

/-- A value that is not nested too deeply is read back from its bytes. -/
theorem Fits.ofBytes?_toBytes {json : Json} (h : Fits maxDepth json) :
    ofBytes? json.toBytes = some json := by
  simp [ofBytes?, toBytes, h.ofString?_render]

/-- An object of values is nested one level deeper than these. -/
lemma Fits.ofFields {room : Nat} {fields : List (String × Json)}
    (h : ∀ field ∈ fields, Fits room field.2) : Fits (room + 1) (ofFields fields) := by
  rw [ofFields_eq_putAll]
  refine .object (pairwise_putAll fields .nil) fun field hfield => ?_
  rcases mem_putAll hfield with hfield | hfield
  · exact h field hfield
  · exact absurd hfield List.not_mem_nil

end SealedMail.Json
