/-!
# Tables

Rows under keys, each key once. A row that is put under a key takes the place of the one before.
Where the keys are numbers of 64 bits, a new row gets the number after the greatest one in use, and
none if this is the last of all numbers.
-/

namespace SealedMail

namespace Table

variable {κ α : Type} [DecidableEq κ]

/-- The row under a key in a list of rows. -/
def rowUnder (key : κ) : List (κ × α) → Option α
  | [] => none
  | (other, row) :: rest => if key = other then some row else rowUnder key rest

/-- The rows with the given one under its key, at the place of that key or at the end. -/
def putRow (key : κ) (row : α) : List (κ × α) → List (κ × α)
  | [] => [(key, row)]
  | (other, old) :: rest =>
    if key = other then (key, row) :: rest else (other, old) :: putRow key row rest

/-- No row comes in but the one that is put. -/
theorem mem_putRow {key : κ} {row : α} {x : κ × α} {rows : List (κ × α)}
    (h : x ∈ putRow key row rows) : x = (key, row) ∨ x ∈ rows := by
  induction rows with
  | nil => simpa [putRow] using h
  | cons first rest ih =>
    obtain ⟨other, old⟩ := first
    rw [putRow] at h
    split at h
    next => exact (List.mem_cons.mp h).imp_right (List.mem_cons_of_mem _)
    next =>
      rcases List.mem_cons.mp h with rfl | h
      · simp
      · exact (ih h).imp_right (List.mem_cons_of_mem _)

/-- Putting a row keeps the keys apart. -/
theorem nodup_putRow (key : κ) (row : α) {rows : List (κ × α)}
    (nodup : (rows.map Prod.fst).Nodup) : ((putRow key row rows).map Prod.fst).Nodup := by
  induction rows with
  | nil => simp [putRow]
  | cons first rest ih =>
    obtain ⟨other, old⟩ := first
    obtain ⟨notMem, tail⟩ := List.nodup_cons.mp nodup
    rw [putRow]
    split
    next same => exact same ▸ nodup
    next ne =>
      refine List.nodup_cons.mpr ⟨fun h => ?_, ih tail⟩
      obtain ⟨x, hx, rfl⟩ := List.mem_map.mp h
      rcases mem_putRow hx with rfl | hx
      · exact ne rfl
      · exact notMem (List.mem_map.mpr ⟨_, hx, rfl⟩)

/-- The row that is put last counts. -/
theorem putRow_putRow (key : κ) (row later : α) (rows : List (κ × α)) :
    putRow key later (putRow key row rows) = putRow key later rows := by
  induction rows with
  | nil => simp [putRow]
  | cons first rest ih =>
    obtain ⟨other, old⟩ := first
    by_cases same : key = other <;> simp [putRow, same, ih]

/-- Putting a row that is there already changes nothing. -/
theorem putRow_rowUnder {key : κ} {row : α} {rows : List (κ × α)}
    (h : rowUnder key rows = some row) : putRow key row rows = rows := by
  induction rows with
  | nil => cases h
  | cons first rest ih =>
    obtain ⟨other, old⟩ := first
    rw [rowUnder] at h
    by_cases same : key = other
    · rw [if_pos same] at h
      cases h
      rw [putRow, if_pos same, same]
    · rw [if_neg same] at h
      rw [putRow, if_neg same, ih h]

end Table

structure Table (κ α : Type) where
  rows : List (κ × α)
  nodup : (rows.map Prod.fst).Nodup

namespace Table

variable {κ α : Type} [DecidableEq κ]

def empty : Table κ α := ⟨[], .nil⟩

def get? (table : Table κ α) (key : κ) : Option α := rowUnder key table.rows

def put (table : Table κ α) (key : κ) (row : α) : Table κ α :=
  ⟨putRow key row table.rows, nodup_putRow key row table.nodup⟩

/-- The table with a row under a key that has none yet. -/
def putNew (table : Table κ α) (key : κ) (row : α) : Table κ α :=
  if (table.get? key).isSome then table else table.put key row

def erase (table : Table κ α) (key : κ) : Table κ α where
  rows := table.rows.filter fun row => row.1 ≠ key
  nodup := table.nodup.sublist (List.filter_sublist.map Prod.fst)

def size (table : Table κ α) : Nat := table.rows.length

def inOrder (table : Table UInt64 α) : List α :=
  (table.rows.mergeSort fun a b => a.1 ≤ b.1).map Prod.snd

/-- The greatest number in use, or zero. -/
def lastId (table : Table UInt64 α) : UInt64 :=
  table.rows.foldl (fun last row => max last row.1) 0

/-- The last of all numbers is in use. -/
def IsFull (table : Table UInt64 α) : Prop :=
  ∃ id row, id.toNat + 1 = UInt64.size ∧ table.get? id = some row

/-- The number after the greatest one in use, from 1 on. The sum is checked: after the last number
of 64 bits there is none. -/
def nextId? (table : Table UInt64 α) : Option UInt64 :=
  if table.lastId.toNat + 1 < UInt64.size then some (table.lastId + 1) else none

@[simp]
theorem get?_empty (key : κ) : (empty : Table κ α).get? key = none := rfl

/-- A row that was put is found under its key, and the other keys have what they had. -/
theorem rowUnder_putRow (key other : κ) (row : α) (rows : List (κ × α)) :
    rowUnder other (putRow key row rows) =
      if other = key then some row else rowUnder other rows := by
  induction rows with
  | nil => by_cases h : other = key <;> simp [putRow, rowUnder, h]
  | cons first rest ih =>
    obtain ⟨k, old⟩ := first
    by_cases hk : key = k <;> by_cases h : other = key <;> by_cases ho : other = k <;>
      simp_all [putRow, rowUnder]

/-- A row that was put is found under its key, and the other keys have what they had. -/
theorem get?_put (table : Table κ α) (key other : κ) (row : α) :
    (table.put key row).get? other = if other = key then some row else table.get? other :=
  rowUnder_putRow key other row table.rows

/-- A row in a table after a row was put there is this one, or was there before. -/
theorem of_get?_put {table : Table κ α} {key other : κ} {row found : α}
    (h : (table.put key row).get? other = some found) :
    (other = key ∧ found = row) ∨ (other ≠ key ∧ table.get? other = some found) := by
  rw [get?_put] at h
  split at h
  next same => exact .inl ⟨same, (Option.some.inj h).symm⟩
  next differs => exact .inr ⟨differs, h⟩

/-- Of two rows that are put under a key, only the later one is left. -/
theorem put_put (table : Table κ α) (key : κ) (row later : α) :
    (table.put key row).put key later = table.put key later := by
  simp only [put, putRow_putRow]

/-- To put the row that is there already changes nothing. -/
theorem put_get? {table : Table κ α} {key : κ} {row : α} (h : table.get? key = some row) :
    table.put key row = table := by
  obtain ⟨rows, nodup⟩ := table
  simp only [put, putRow_rowUnder h]

/-- Without the rows of a key nothing is found under it, and the other keys have what they had. -/
theorem rowUnder_filter (key other : κ) (rows : List (κ × α)) :
    rowUnder other (rows.filter fun row => row.1 ≠ key) =
      if other = key then none else rowUnder other rows := by
  induction rows with
  | nil => simp [rowUnder]
  | cons first rest ih =>
    obtain ⟨k, old⟩ := first
    by_cases hk : k = key <;> by_cases h : other = key <;> by_cases ho : other = k <;>
      simp_all [rowUnder]

/-- Nothing is found under a key that was erased, and the other keys have what they had. -/
theorem get?_erase (table : Table κ α) (key other : κ) :
    (table.erase key).get? other = if other = key then none else table.get? other :=
  rowUnder_filter key other table.rows

/-- A row that is left after one was erased was there before. -/
theorem get?_of_erase {table : Table κ α} {key other : κ} {row : α}
    (h : (table.erase key).get? other = some row) : table.get? other = some row := by
  rw [get?_erase] at h
  split at h
  next => cases h
  next => exact h

/-- A row that is put where none was is there, and one that was there stays. -/
theorem get?_putNew (table : Table κ α) (key other : κ) (row : α) :
    (table.putNew key row).get? other =
      if other = key then some ((table.get? key).getD row) else table.get? other := by
  rw [putNew]
  cases h : table.get? key with
  | none => simpa using table.get?_put key other row
  | some old => by_cases same : other = key <;> simp [same, h]

/-- A row that is found is one of the rows. -/
theorem mem_rows_of_rowUnder {key : κ} {row : α} {rows : List (κ × α)}
    (h : rowUnder key rows = some row) : (key, row) ∈ rows := by
  induction rows with
  | nil => simp [rowUnder] at h
  | cons first rest ih =>
    obtain ⟨other, old⟩ := first
    rw [rowUnder] at h
    split at h
    next same =>
      cases h
      simp [same]
    next => exact List.mem_cons_of_mem _ (ih h)

/-- Each of the rows is found under its key, if no key comes twice. -/
theorem rowUnder_of_mem_rows {key : κ} {row : α} {rows : List (κ × α)}
    (nodup : (rows.map Prod.fst).Nodup) (h : (key, row) ∈ rows) : rowUnder key rows = some row := by
  induction rows with
  | nil => cases h
  | cons first rest ih =>
    obtain ⟨other, old⟩ := first
    obtain ⟨notMem, tail⟩ := List.nodup_cons.mp nodup
    rw [rowUnder]
    rcases List.mem_cons.mp h with here | later
    · cases here
      rw [if_pos rfl]
    · rw [if_neg, ih tail later]
      rintro rfl
      exact notMem (List.mem_map.mpr ⟨_, later, rfl⟩)

/-- The rows of a table are those that are found. -/
theorem mem_rows {table : Table κ α} {key : κ} {row : α} :
    (key, row) ∈ table.rows ↔ table.get? key = some row :=
  ⟨rowUnder_of_mem_rows table.nodup, mem_rows_of_rowUnder⟩

/-- Putting the rows in order loses none and adds none. -/
theorem mem_inOrder {table : Table UInt64 α} {row : α} :
    row ∈ table.inOrder ↔ ∃ id, table.get? id = some row := by
  simp [inOrder, ← mem_rows]

/-- Of two numbers the greater one is one of them, and neither is above it. -/
theorem max_cases (a b : UInt64) : (max a b = a ∨ max a b = b) ∧ a ≤ max a b ∧ b ≤ max a b := by
  rw [show max a b = if a ≤ b then b else a from rfl]
  split
  next h => exact ⟨.inr rfl, h, UInt64.le_refl b⟩
  next h => exact ⟨.inl rfl, UInt64.le_refl a, (UInt64.le_total a b).resolve_left h⟩

/-- The greatest number of some rows is not below the one it is compared with, nor below any of
theirs. -/
theorem le_foldl_max (rows : List (UInt64 × α)) (least : UInt64) :
    least ≤ rows.foldl (fun last row => max last row.1) least ∧
      ∀ row ∈ rows, row.1 ≤ rows.foldl (fun last row => max last row.1) least := by
  induction rows generalizing least with
  | nil => exact ⟨UInt64.le_refl least, fun _ h => absurd h List.not_mem_nil⟩
  | cons first rest ih =>
    obtain ⟨_, left, right⟩ := max_cases least first.1
    obtain ⟨bound, later⟩ := ih (max least first.1)
    refine ⟨UInt64.le_trans left bound, fun row h => ?_⟩
    rcases List.mem_cons.mp h with rfl | h
    · exact UInt64.le_trans right bound
    · exact later row h

/-- The greatest number of some rows is the one it is compared with, or one of theirs. -/
theorem foldl_max_mem (rows : List (UInt64 × α)) (least : UInt64) :
    rows.foldl (fun last row => max last row.1) least ∈ least :: rows.map Prod.fst := by
  induction rows generalizing least with
  | nil => exact List.mem_singleton_self least
  | cons first rest ih =>
    rcases List.mem_cons.mp (ih (max least first.1)) with same | later
    · rw [List.foldl_cons, same]
      rcases (max_cases least first.1).1 with left | right
      · rw [left]
        exact List.mem_cons_self
      · rw [right]
        exact List.mem_cons_of_mem _ List.mem_cons_self
    · exact List.mem_cons_of_mem _ (List.mem_cons_of_mem _ later)

/-- No number in use is above the greatest one. -/
theorem le_lastId {table : Table UInt64 α} {id : UInt64} {row : α}
    (h : table.get? id = some row) : id ≤ table.lastId :=
  (le_foldl_max table.rows 0).2 _ (mem_rows.mpr h)

/-- The next number is above all that are in use. -/
theorem lt_of_nextId? {table : Table UInt64 α} {next id : UInt64} {row : α}
    (h : table.nextId? = some next) (found : table.get? id = some row) : id < next := by
  rw [nextId?] at h
  split at h
  next fits =>
    cases h
    have sum : (table.lastId + 1).toNat = table.lastId.toNat + 1 :=
      (UInt64.toNat_add _ _).trans (Nat.mod_eq_of_lt fits)
    rw [UInt64.lt_iff_toNat_lt, sum]
    exact Nat.lt_succ_of_le (UInt64.le_iff_toNat_le.mp (le_lastId found))
  next => cases h

/-- The next number is free. -/
theorem get?_of_nextId? {table : Table UInt64 α} {next : UInt64}
    (h : table.nextId? = some next) : table.get? next = none := by
  cases found : table.get? next with
  | none => rfl
  | some row => exact absurd (lt_of_nextId? h found) (UInt64.lt_irrefl next)

/-- There is no next number exactly if the last one is in use. -/
theorem nextId?_eq_none {table : Table UInt64 α} : table.nextId? = none ↔ table.IsFull := by
  have bound (id : UInt64) : id.toNat + 1 ≤ UInt64.size := id.toNat_lt
  rw [nextId?]
  split
  next fits =>
    refine ⟨nofun, fun ⟨id, row, last, found⟩ => ?_⟩
    have below := UInt64.le_iff_toNat_le.mp (le_lastId found)
    omega
  next full =>
    refine ⟨fun _ => ?_, fun _ => rfl⟩
    have last : table.lastId.toNat + 1 = UInt64.size :=
      Nat.le_antisymm (bound table.lastId) (Nat.not_lt.mp full)
    rcases List.mem_cons.mp (foldl_max_mem table.rows 0) with zero | mem
    · rw [lastId, zero] at last
      cases last
    · obtain ⟨⟨id, row⟩, here, same⟩ := List.mem_map.mp mem
      cases same
      exact ⟨table.lastId, row, last, mem_rows.mp here⟩

end Table

end SealedMail
