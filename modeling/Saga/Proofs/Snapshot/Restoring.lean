import Mathlib.Data.List.Dedup
import Saga.Proofs.Snapshot.Loading

/-!
# What a load restores

A load counts the rows of the file, and the table has one row for each key. So the count is that of
the rows in the table if and only if no key comes twice (`Store.instanceCount_restore_eq_iff`), and
every row of the file is found under its key if and only if rows under one key are the same
(`Store.get?_restore_mem_iff`). Of several rows under one key the last one stands.
-/

namespace Saga.Store

variable {s : Store} {rows : List StoredInstance} {path : String} {disk later : Disk}

/-! ## Keys -/

/-- The keys of some rows, in their order. -/
def keysOf (rows : List StoredInstance) : List InstanceKey := rows.map fun row => row.record.key

/-- The table has a row for each key that comes up, and no others. -/
lemma mem_keys_restore {key : InstanceKey} :
    key ∈ (s.restore rows).table.rows.keys ↔ key ∈ keysOf rows := by
  have hget : (s.restore rows).table.rows.get? key =
      rows.reverse.find? fun row => row.record.key = key := get?_restore s rows key
  rw [← Keyed.contains_iff_mem_keys, Keyed.contains, hget, List.find?_isSome, keysOf, List.mem_map]
  simp

/-- A restored store counts the distinct keys of the rows. -/
lemma instanceCount_restore : (s.restore rows).instanceCount = (keysOf rows).dedup.length := by
  have hperm : (s.restore rows).table.rows.keys.Perm (keysOf rows).dedup := by
    have hnodup : (s.restore rows).table.rows.keys.Nodup := (s.restore rows).table.rows.nodup
    rw [List.perm_ext_iff_of_nodup hnodup (List.nodup_dedup _)]
    intro key
    rw [List.mem_dedup]
    exact mem_keys_restore
  rw [← hperm.length_eq]
  exact (List.length_map _).symm

/-- There are as many keys as rows, if those that come again are counted again. -/
lemma length_keysOf : (keysOf rows).length = rows.length := List.length_map _

/-- A restored store counts no more instances than there were rows. -/
lemma instanceCount_restore_le : (s.restore rows).instanceCount ≤ rows.length := by
  rw [instanceCount_restore, ← length_keysOf]
  exact (List.dedup_sublist _).length_le

/-- The table has as many rows as came in if no key came twice. -/
lemma instanceCount_restore_eq_iff :
    (s.restore rows).instanceCount = rows.length ↔ (keysOf rows).Nodup := by
  rw [instanceCount_restore, ← length_keysOf]
  constructor
  · intro h
    exact List.dedup_eq_self.1 ((List.dedup_sublist _).eq_of_length h)
  · intro h
    rw [List.dedup_eq_self.2 h]

/-- Every row is found under its key if rows under one key are the same. -/
lemma get?_restore_mem_iff :
    (∀ row ∈ rows, (s.restore rows).get? row.record.key = some row) ↔
      ∀ a ∈ rows, ∀ b ∈ rows, a.record.key = b.record.key → a = b := by
  constructor
  · intro h a ha b hb hkey
    have hboth := h a ha
    rw [hkey, h b hb] at hboth
    exact (Option.some.inj hboth).symm
  · intro h row hrow
    rw [get?_restore]
    cases hfound : rows.reverse.find? fun other => other.record.key = row.record.key with
    | none =>
      have hnone := List.find?_eq_none.1 hfound row (List.mem_reverse.2 hrow)
      exact absurd (decide_eq_true rfl) hnone
    | some other =>
      have hmem := List.mem_reverse.1 (List.mem_of_find?_eq_some hfound)
      have hkey : other.record.key = row.record.key := by simpa using List.find?_some hfound
      rw [h other hmem row hrow hkey]

/-! ## Loads -/

/-- A load that succeeds has read rows, counts them, and restores the store from them. -/
lemma loadSnapshot_ok {n : Nat} {restored : Store}
    (h : s.loadSnapshot path disk = .ok (n, restored) later) :
    ∃ rows, Snapshot.read path disk = .ok rows disk ∧ later = disk ∧ n = rows.length ∧
      restored = s.restore rows := by
  obtain ⟨rows, hread⟩ | ⟨e, herror⟩ := Snapshot.read_cases path disk
  · rw [loadSnapshot_run hread] at h
    cases h
    exact ⟨rows, hread, rfl, rfl, rfl⟩
  · rw [Snapshot.loadSnapshot_error herror] at h
    cases h

/-- A load answers the number of rows in the file, each of which comes under its key, the last one
under each standing. So the store has that number of instances if and only if no key comes twice,
and gives back every row of the file if and only if rows under one key are the same. -/
theorem loadSnapshot_restores {n : Nat} {restored : Store}
    (h : s.loadSnapshot path disk = .ok (n, restored) later) :
    ∃ rows, Snapshot.read path disk = .ok rows disk ∧ later = disk ∧ n = rows.length ∧
      (∀ key, restored.get? key = rows.reverse.find? fun row => row.record.key = key) ∧
      restored.outbox = s.outbox ∧ restored.commits = s.commits ∧ restored.options = s.options ∧
      restored.instanceCount ≤ n ∧
      (restored.instanceCount = n ↔ (keysOf rows).Nodup) ∧
      ((∀ row ∈ rows, restored.get? row.record.key = some row) ↔
        ∀ a ∈ rows, ∀ b ∈ rows, a.record.key = b.record.key → a = b) := by
  obtain ⟨rows, hread, rfl, rfl, rfl⟩ := loadSnapshot_ok h
  exact ⟨rows, hread, rfl, rfl, get?_restore s rows, rfl, rfl, rfl, instanceCount_restore_le,
    instanceCount_restore_eq_iff, get?_restore_mem_iff⟩

namespace Restoring

open Snapshot.Loading (saved)

/-- A row in some state of the one instance that there is. -/
def row (state : Int32) : StoredInstance := ⟨⟨⟨"c1", "order"⟩, state, 2⟩, 5, 5⟩

/-- Saved rows are read back from the disk they were saved to. -/
lemma read_saved (hversions : ∀ row ∈ rows, row.record.version < wordBound)
    (hsize : (Snapshot.data rows).length < wordBound) :
    Snapshot.read "rows" (saved rows) = .ok rows (saved rows) :=
  have hsaved := Snapshot.saved_of_write (Snapshot.Loading.write_eq rows)
  Snapshot.read_run hsaved.readData hsaved.readSidecar (Snapshot.decode_data 3 hversions hsize)

/-- Two rows under one key are written, and count as two when they are loaded, but the first one is
gone. -/
theorem first_row_lost :
    ∃ restored, Store.loadSnapshot {} "rows" (saved [row 0, row 1]) =
        .ok (2, restored) (saved [row 0, row 1]) ∧
      restored.instanceCount = 1 ∧ restored.get? (row 0).record.key = some (row 1) ∧
      row 0 ≠ row 1 :=
  have hsize : (Snapshot.data [row 0, row 1]).length < wordBound := by
    rw [Snapshot.data_eq]
    decide +kernel
  ⟨_, loadSnapshot_run (read_saved (by decide) hsize), by rfl, by rfl, by decide⟩

/-- Rows of two workflows and three instances, each with a key of its own. -/
def orders : List StoredInstance :=
  [row 1, ⟨⟨⟨"c2", "order"⟩, -7, 1⟩, 6, 6⟩, ⟨⟨⟨"c1", "loyalty"⟩, 1, 2⟩, 5, 5⟩,
    ⟨⟨⟨"c3", "order"⟩, 0, UInt64.size - 1⟩, 8, 9⟩]

/-- Rows that have their keys to themselves are all counted and all come back, in place of the row
that was there. -/
theorem rows_restored :
    let s : Store := { table := InstanceTable.empty.put (row 0), commits := 3 }
    ∃ restored, s.loadSnapshot "rows" (saved orders) = .ok (4, restored) (saved orders) ∧
      restored.instanceCount = 4 ∧ restored.commits = 3 ∧
      (∀ row ∈ orders, restored.get? row.record.key = some row) ∧
      restored.get? ⟨"c2", "loyalty"⟩ = none := by
  intro s
  have hsize : (Snapshot.data orders).length < wordBound := by
    rw [Snapshot.data_eq]
    decide +kernel
  have hread := read_saved (by decide) hsize
  have hload := loadSnapshot_run (s := s) hread
  obtain ⟨rows, hrows, -, -, hfound, -, hcommits, -, -, hcount, hback⟩ :=
    loadSnapshot_restores hload
  cases hread.symm.trans hrows
  have hdistinct : ∀ a ∈ orders, ∀ b ∈ orders, a.record.key = b.record.key → a = b := by decide
  exact ⟨_, hload, hcount.2 (by decide), hcommits, hback.2 hdistinct, (hfound _).trans (by decide)⟩

end Restoring

end Saga.Store
