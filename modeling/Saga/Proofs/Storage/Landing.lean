import Mathlib.Tactic.Lemma
import Saga.Store

/-!
# Commits of one row

A dispatch commits one write. The store takes the adding of a row when there is none under its key,
and the update of a row when there is one, at the version that the update carries
(`commit_add_eq_ok_iff`, `commit_update_eq_ok_iff`). Either way one row comes to stand in the table
and the messages join the outbox; all else stays as it was (`Landed`).
-/

namespace Saga.Store

/-- Whether a commit of the row and the messages makes the second store out of the first. -/
structure Landed (before after : Store) (row : StoredInstance) (messages : List Envelope) :
    Prop where
  here : after.get? row.record.key = some row
  elsewhere : ∀ key, key ≠ row.record.key → after.get? key = before.get? key
  outbox : after.outbox = before.outbox ++ messages
  commits : after.commits = before.commits + 1
  options : after.options = before.options

variable {s after : Store} {now : Timestamp} {record : InstanceRecord} {row : StoredInstance}
  {messages : List Envelope}

/-- The row that is put in by adding a record. -/
def added (now : Timestamp) (record : InstanceRecord) : StoredInstance :=
  ⟨{ record with version := 1 }, now, now⟩

/-- A record is added when there is no row under its key. -/
lemma commit_add_eq_ok_iff :
    s.commit now [.add record] messages = .ok after ↔
      s.get? record.key = none ∧
        after = { s with
          table := s.table.put (added now record)
          outbox := s.outbox ++ messages
          commits := s.commits + 1 } := by
  rw [commit_eq_ok_iff]
  refine and_congr_left fun _ => ?_
  cases hrow : s.table.get? record.key with
  | none => simp [checkAll, check, versionAfter?, Store.get?, hrow]
  | some row => simp [checkAll, check, versionAfter?, Store.get?, hrow]

/-- A record is updated when there is a row under its key, at the version of the record if versions
count. -/
lemma commit_update_eq_ok_iff :
    s.commit now [.update record] messages = .ok after ↔
      (∃ row, s.get? record.key = some row ∧
        (s.options.optimisticConcurrency = true → row.record.version = record.version)) ∧
        after = { s with
          table := s.table.advance now record.key record.state
          outbox := s.outbox ++ messages
          commits := s.commits + 1 } := by
  rw [commit_eq_ok_iff]
  refine and_congr_left fun _ => ?_
  cases hrow : s.table.get? record.key with
  | none => simp [checkAll, check, versionAfter?, Store.get?, hrow]
  | some row =>
    simp only [checkAll, check, versionAfter?, Store.get?, hrow, Keyed.get?_empty, Option.map_some]
    by_cases hversion : s.options.optimisticConcurrency = true → row.record.version = record.version
    · have hfits :
          (s.options.optimisticConcurrency && row.record.version != record.version) = false := by
        simpa using hversion
      simpa [hfits] using hversion
    · have hfits :
          (s.options.optimisticConcurrency && row.record.version != record.version) = true := by
        simpa using hversion
      simpa [hfits] using hversion

/-- The row that was added stands in the table, and no other row has changed. -/
lemma Landed.of_add (h : s.commit now [.add record] messages = .ok after) :
    s.get? record.key = none ∧ Landed s after (added now record) messages := by
  obtain ⟨hnone, rfl⟩ := commit_add_eq_ok_iff.1 h
  refine ⟨hnone, ?_, ?_, rfl, rfl, rfl⟩
  · simp [Store.get?]
  · intro key hkey
    have hne : (added now record).record.key ≠ key := hkey.symm
    simp [Store.get?, hne]

/-- The row that was updated has moved on, and no other row has changed. -/
lemma Landed.of_update (h : s.commit now [.update record] messages = .ok after) :
    ∃ row, s.get? record.key = some row ∧
      (s.options.optimisticConcurrency = true → row.record.version = record.version) ∧
      Landed s after (row.advanced now record.state) messages := by
  obtain ⟨⟨row, hrow, hversion⟩, rfl⟩ := commit_update_eq_ok_iff.1 h
  have hkey : row.record.key = record.key := InstanceTable.key_of_get? hrow
  refine ⟨row, hrow, hversion, ?_, ?_, rfl, rfl, rfl⟩
  · have hget : s.table.get? record.key = some row := hrow
    simp [Store.get?, hkey, hget]
  · intro key hother
    have hne : record.key ≠ key := by
      intro heq
      exact hother (heq.symm.trans hkey.symm)
    simp [Store.get?, hne]

/-- Where there is no row one can be added. -/
lemma exists_commit_add (now : Timestamp) (record : InstanceRecord)
    (hrow : s.get? record.key = none) (messages : List Envelope) :
    ∃ after, s.commit now [.add record] messages = .ok after ∧
      Landed s after (added now record) messages := by
  have hcommit : s.commit now [.add record] messages = .ok _ :=
    commit_add_eq_ok_iff.2 ⟨hrow, rfl⟩
  exact ⟨_, hcommit, (Landed.of_add hcommit).2⟩

/-- Where there is a row it can be moved on from the version that it has. -/
lemma exists_commit_update (now : Timestamp) (record : InstanceRecord)
    (hrow : s.get? record.key = some row) (hversion : row.record.version = record.version)
    (messages : List Envelope) :
    ∃ after, s.commit now [.update record] messages = .ok after ∧
      Landed s after (row.advanced now record.state) messages := by
  have hcommit : s.commit now [.update record] messages = .ok _ :=
    commit_update_eq_ok_iff.2 ⟨⟨row, hrow, fun _ => hversion⟩, rfl⟩
  obtain ⟨row', hrow', -, hlanded⟩ := Landed.of_update hcommit
  cases hrow.symm.trans hrow'
  exact ⟨_, hcommit, hlanded⟩

end Saga.Store
