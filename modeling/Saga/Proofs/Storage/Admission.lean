import Mathlib.Tactic.Lemma
import Saga.Store

/-!
# Admission of writes

What a store says of one write depends on the version of the row under its key and on whether
versions count (`StagedWrite.judge`). A commit goes over its batch twice, first for the versions
that the rows will have and then to make the writes. The first pass foresees what the second one
does (`Store.Foresees`), so the two are one pass in which each write is admitted to the rows that
the writes before it have left (`Store.commit_eq_writeAll`).
-/

namespace Saga

/-- The version that a row will have after the write, given the one that it has, or why the write
does not fit. -/
def StagedWrite.judge (options : StoreOptions) (current : Option Nat) :
    StagedWrite → Except StoreError Nat
  | .add record =>
    match current with
    | some _ => .error (.instanceExists record.key)
    | none => .ok 1
  | .update record =>
    match current with
    | none => .error (.instanceNotFound record.key)
    | some version =>
      if options.optimisticConcurrency && version != record.version then
        .error (.conflict record.key record.version version)
      else .ok (version + 1)

/-- A write with the time at which it is made. -/
structure Posting where
  time : Timestamp
  write : StagedWrite

namespace InstanceTable

/-- The version of the row under a key. -/
def version? (t : InstanceTable) (key : InstanceKey) : Option Nat :=
  (t.get? key).map fun row => row.record.version

/-- Makes a write if it fits. -/
def write (options : StoreOptions) (t : InstanceTable) (p : Posting) :
    Except StoreError InstanceTable :=
  match p.write.judge options (t.version? p.write.record.key) with
  | .ok _ => .ok (Store.applyWrite p.time t p.write)
  | .error e => .error e

/-- Makes writes in order, up to the first that does not fit. -/
def writeAll (options : StoreOptions) (t : InstanceTable) (postings : List Posting) :
    Except StoreError InstanceTable :=
  postings.foldlM (write options) t

variable {options : StoreOptions} {t t' : InstanceTable} {p : Posting}

/-- Nothing to write leaves the table as it is. -/
@[simp] lemma writeAll_nil : t.writeAll options [] = .ok t := rfl

/-- Writes are made as long as they fit. -/
lemma writeAll_cons (postings : List Posting) :
    t.writeAll options (p :: postings) =
      match t.write options p with
      | .ok t' => t'.writeAll options postings
      | .error e => .error e := by
  simp only [writeAll, List.foldlM_cons, bind, Except.bind]
  cases t.write options p <;> rfl

/-- Writes are all made when the first ones are, and then the others. -/
lemma writeAll_append_eq_ok_iff {first second : List Posting} :
    t.writeAll options (first ++ second) = .ok t' ↔
      ∃ mid, t.writeAll options first = .ok mid ∧ mid.writeAll options second = .ok t' := by
  simp only [writeAll, List.foldlM_append, bind, Except.bind]
  cases List.foldlM (write options) t first with
  | error e => simp
  | ok mid => simp

/-- A write that is made is one that fits. -/
lemma write_eq_ok_iff :
    t.write options p = .ok t' ↔
      (∃ version, p.write.judge options (t.version? p.write.record.key) = .ok version) ∧
        t' = Store.applyWrite p.time t p.write := by
  unfold write
  split
  · next version h => simp [h, eq_comm]
  · next e h => simp [h]

/-- An admitted write leaves its row at the version for which it was admitted, and no other row at
another version than before. -/
lemma version?_applyWrite {w : StagedWrite} {version : Nat} (now : Timestamp)
    (h : w.judge options (t.version? w.record.key) = .ok version) (key : InstanceKey) :
    (Store.applyWrite now t w).version? key =
      if w.record.key = key then some version else t.version? key := by
  cases w with
  | add record =>
    have hversion : version = 1 := by
      simp only [StagedWrite.judge] at h
      split at h
      · cases h
      · exact (Except.ok.inj h).symm
    by_cases hkey : record.key = key
    · simp [Store.applyWrite, StagedWrite.record, version?, hkey, hversion]
    · simp [Store.applyWrite, StagedWrite.record, version?, hkey]
  | update record =>
    simp only [StagedWrite.judge, StagedWrite.record] at h
    split at h
    · cases h
    · next current hcurrent =>
      have hversion : version = current + 1 := by
        split at h
        · cases h
        · exact (Except.ok.inj h).symm
      obtain ⟨row, hrow, rfl⟩ := Option.map_eq_some_iff.1 hcurrent
      by_cases hkey : record.key = key
      · subst hkey
        simp [Store.applyWrite, StagedWrite.record, version?, hrow, hversion,
          StoredInstance.advanced]
      · simp [Store.applyWrite, StagedWrite.record, version?, hkey]

end InstanceTable

namespace Store

variable {s : Store} {pending : Pending} {table : InstanceTable} {w : StagedWrite}

/-- The check of a write notes the version for which the write is admitted. -/
lemma check_eq (s : Store) (pending : Pending) (w : StagedWrite) :
    s.check pending w =
      (w.judge s.options (s.versionAfter? pending w.record.key)).map
        (pending.insert w.record.key) := by
  cases w with
  | add record =>
    simp only [check, StagedWrite.judge, StagedWrite.record]
    cases s.versionAfter? pending record.key <;> rfl
  | update record =>
    simp only [check, StagedWrite.judge, StagedWrite.record]
    cases s.versionAfter? pending record.key with
    | none => rfl
    | some current =>
      simp only []
      split <;> rfl

/-- A write that was noted decides the version of its key, and of no other. -/
lemma versionAfter?_insert (s : Store) (pending : Pending) (k : InstanceKey) (version : Nat)
    (key : InstanceKey) :
    s.versionAfter? (pending.insert k version) key =
      if k = key then some version else s.versionAfter? pending key := by
  by_cases hkey : k = key <;> simp [versionAfter?, hkey]

/-- Whether the pending versions are those of a table. -/
def Foresees (s : Store) (pending : Pending) (table : InstanceTable) : Prop :=
  ∀ key, s.versionAfter? pending key = table.version? key

/-- Before any write the versions are those of the table. -/
lemma foresees_empty (s : Store) : s.Foresees Keyed.empty s.table := fun _ => rfl

/-- An admitted write is foreseen. -/
lemma Foresees.applyWrite (h : s.Foresees pending table) {version : Nat} (now : Timestamp)
    (hjudge : w.judge s.options (table.version? w.record.key) = .ok version) :
    s.Foresees (pending.insert w.record.key version) (Store.applyWrite now table w) := by
  intro key
  rw [versionAfter?_insert, InstanceTable.version?_applyWrite now hjudge, h key]

/-- Checking a batch and then making its writes is to admit and make them one after the other. What
was noted in the end are the versions that the rows then have. -/
lemma checkAll_cases (h : s.Foresees pending table) (now : Timestamp) (writes : List StagedWrite) :
    (∃ e, s.checkAll pending writes = .error e ∧
        table.writeAll s.options (writes.map (Posting.mk now)) = .error e) ∨
      ∃ pending', s.checkAll pending writes = .ok pending' ∧
        table.writeAll s.options (writes.map (Posting.mk now)) = .ok (applyAll now table writes) ∧
        s.Foresees pending' (applyAll now table writes) := by
  induction writes generalizing pending table with
  | nil => exact .inr ⟨pending, rfl, rfl, h⟩
  | cons w rest ih =>
    rw [List.map_cons, InstanceTable.writeAll_cons, InstanceTable.write, checkAll, check_eq,
      h w.record.key]
    -- Both passes ask the same question about the first write.
    cases hjudge : w.judge s.options (table.version? w.record.key) with
    | error e => exact .inl ⟨e, rfl, rfl⟩
    | ok version => exact ih (h.applyWrite now hjudge)

/-- A commit admits and makes the writes of its batch one after the other. -/
lemma commit_eq_writeAll (s : Store) (now : Timestamp) (writes : List StagedWrite)
    (messages : List Envelope) :
    s.commit now writes messages =
      (s.table.writeAll s.options (writes.map (Posting.mk now))).map fun table =>
        { s with table, outbox := s.outbox ++ messages, commits := s.commits + 1 } := by
  unfold commit
  rcases checkAll_cases s.foresees_empty now writes with
    ⟨e, hcheck, hwrite⟩ | ⟨pending, hcheck, hwrite, -⟩
  · rw [hcheck, hwrite]
    rfl
  · rw [hcheck, hwrite]
    rfl

/-- A commit that succeeds has made the writes of its batch. -/
lemma writeAll_of_commit {after : Store} {now : Timestamp} {writes : List StagedWrite}
    {messages : List Envelope} (h : s.commit now writes messages = .ok after) :
    s.table.writeAll s.options (writes.map (Posting.mk now)) = .ok after.table ∧
      after.options = s.options := by
  rw [commit_eq_writeAll] at h
  cases hwrite : s.table.writeAll s.options (writes.map (Posting.mk now)) with
  | error e =>
    rw [hwrite] at h
    cases h
  | ok table =>
    rw [hwrite] at h
    cases h
    exact ⟨rfl, rfl⟩

end Store

end Saga
