import Saga.Instance
import Saga.Keyed

/-!
# Instance tables

An `InstanceTable` holds the committed rows, every row under the key that its record carries
(`key_of_get?`). A row is put in as a whole, or moved on: to another state, with the next version.
-/

namespace Saga

/-- The row moved on to `state` at the time `now`. -/
def StoredInstance.advanced (row : StoredInstance) (now : Timestamp) (state : Int32) :
    StoredInstance :=
  { row with
    record := { row.record with state, version := row.record.version + 1 }
    updatedAt := now }

/-- A row that is moved on keeps its key. -/
@[simp] theorem StoredInstance.advanced_key (row : StoredInstance) (now : Timestamp)
    (state : Int32) : (row.advanced now state).record.key = row.record.key := rfl

/-- The committed rows by key. -/
structure InstanceTable where
  rows : Keyed InstanceKey StoredInstance := Keyed.empty
  /-- Every row stands under its own key. -/
  keyed : ∀ key row, rows.get? key = some row → row.record.key = key := by simp

namespace InstanceTable

/-- The table without rows. -/
def empty : InstanceTable := {}

/-- The row under a key. -/
def get? (t : InstanceTable) (key : InstanceKey) : Option StoredInstance := t.rows.get? key

/-- Puts a row in under its key, replacing what was there. -/
def put (t : InstanceTable) (row : StoredInstance) : InstanceTable where
  rows := t.rows.insert row.record.key row
  keyed key other h := by
    rw [Keyed.get?_insert] at h
    split at h
    · next hkey => exact Option.some.inj h ▸ hkey
    · exact t.keyed key other h

/-- Moves the row under a key on, if there is one. -/
def advance (t : InstanceTable) (now : Timestamp) (key : InstanceKey) (state : Int32) :
    InstanceTable where
  rows := t.rows.modify key fun row => row.advanced now state
  keyed other row h := by
    rw [Keyed.get?_modify] at h
    split at h
    · obtain ⟨before, hbefore, rfl⟩ := Option.map_eq_some_iff.1 h
      exact t.keyed other before hbefore
    · exact t.keyed other row h

/-- The table of some rows. Of several rows under one key the last one counts. -/
def ofList (rows : List StoredInstance) : InstanceTable := rows.foldl put empty

/-- The rows, in the order in which their keys came in. -/
def toList (t : InstanceTable) : List StoredInstance := t.rows.values

/-- The number of rows. -/
def size (t : InstanceTable) : Nat := t.rows.size

/-- The row found under a key has that key. -/
theorem key_of_get? {t : InstanceTable} {key : InstanceKey} {row : StoredInstance}
    (h : t.get? key = some row) : row.record.key = key :=
  t.keyed key row h

/-- There is no row in the empty table. -/
@[simp] theorem get?_empty (key : InstanceKey) : empty.get? key = none := rfl

/-- After a put the row stands under its own key, and the other keys have what they had. -/
@[simp] theorem get?_put (t : InstanceTable) (row : StoredInstance) (key : InstanceKey) :
    (t.put row).get? key = if row.record.key = key then some row else t.get? key :=
  Keyed.get?_insert t.rows row.record.key key row

/-- Moving on a key changes the row under it, if there is one, and no other. -/
@[simp] theorem get?_advance (t : InstanceTable) (now : Timestamp) (key other : InstanceKey)
    (state : Int32) :
    (t.advance now key state).get? other =
      if key = other then (t.get? other).map fun row => row.advanced now state
      else t.get? other :=
  Keyed.get?_modify t.rows key other _

end InstanceTable

end Saga
