import Saga.Envelope
import Saga.Instance.Table

/-!
# The store

The committed rows, the outbox of committed messages and the number of commits. Rows and messages
only come in through `commit`, which takes a batch of staged writes as a whole: `checkAll` follows
the versions that the rows will have, write by write, and the first write that does not fit refuses
the batch; otherwise `applyAll` makes the writes in order. `drain` hands out the outbox, `restore`
replaces the rows.
-/

namespace Saga

/-- How a store treats updates. -/
structure StoreOptions where
  /-- Whether an update must carry the version that the row has. -/
  optimisticConcurrency : Bool := true
  deriving DecidableEq, Repr

/-- A write that a session holds back until it commits. -/
inductive StagedWrite where
  | add (record : InstanceRecord)
  | update (record : InstanceRecord)
  deriving DecidableEq, Repr

/-- The record of a write. -/
def StagedWrite.record : StagedWrite → InstanceRecord
  | add record => record
  | update record => record

/-- What has been committed. -/
structure Store where
  options : StoreOptions := {}
  table : InstanceTable := .empty
  /-- Committed messages that were not handed out yet, the oldest first. -/
  outbox : List Envelope := []
  commits : Nat := 0

namespace Store

/-- The versions that rows will have once the writes looked at so far are made. -/
abbrev Pending := Keyed InstanceKey Nat

/-- The version of the row under `key` after the pending writes. -/
def versionAfter? (s : Store) (pending : Pending) (key : InstanceKey) : Option Nat :=
  match pending.get? key with
  | some version => some version
  | none => (s.table.get? key).map fun row => row.record.version

/-- Adds a write to the pending ones, or says why it does not fit. -/
def check (s : Store) (pending : Pending) : StagedWrite → Except StoreError Pending
  | .add record =>
    match s.versionAfter? pending record.key with
    | some _ => .error (.instanceExists record.key)
    | none => .ok (pending.insert record.key 1)
  | .update record =>
    match s.versionAfter? pending record.key with
    | none => .error (.instanceNotFound record.key)
    | some current =>
      if s.options.optimisticConcurrency && current != record.version then
        .error (.conflict record.key record.version current)
      else .ok (pending.insert record.key (current + 1))

/-- Checks the writes of a batch in order. -/
def checkAll (s : Store) : Pending → List StagedWrite → Except StoreError Pending
  | pending, [] => .ok pending
  | pending, w :: rest =>
    match s.check pending w with
    | .ok pending => checkAll s pending rest
    | .error e => .error e

/-- Makes one write. An update moves the row on from whatever version it has. -/
def applyWrite (now : Timestamp) (table : InstanceTable) : StagedWrite → InstanceTable
  | .add record => table.put ⟨{ record with version := 1 }, now, now⟩
  | .update record => table.advance now record.key record.state

/-- Makes the writes of a batch in order. -/
def applyAll (now : Timestamp) (table : InstanceTable) (writes : List StagedWrite) :
    InstanceTable :=
  writes.foldl (applyWrite now) table

/-- Takes a batch of writes and messages as a whole, or refuses all of it. -/
def commit (s : Store) (now : Timestamp) (writes : List StagedWrite) (messages : List Envelope) :
    Except StoreError Store :=
  match s.checkAll Keyed.empty writes with
  | .error e => .error e
  | .ok _ =>
    .ok { s with
      table := applyAll now s.table writes
      outbox := s.outbox ++ messages
      commits := s.commits + 1 }

/-- A commit succeeds when its batch passes the check. Then all of the batch is applied, the
messages join the outbox and the commit is counted. -/
theorem commit_eq_ok_iff {s after : Store} {now : Timestamp} {writes : List StagedWrite}
    {messages : List Envelope} :
    s.commit now writes messages = .ok after ↔
      (∃ pending, s.checkAll Keyed.empty writes = .ok pending) ∧
        after = { s with
          table := applyAll now s.table writes
          outbox := s.outbox ++ messages
          commits := s.commits + 1 } := by
  unfold commit
  split
  · next e h => simp [h]
  · next pending h => simp [h, eq_comm]

/-- The committed row under a key. -/
def get? (s : Store) (key : InstanceKey) : Option StoredInstance := s.table.get? key

/-- The number of committed rows. -/
def instanceCount (s : Store) : Nat := s.table.size

/-- The committed rows in the order of their keys. -/
def instances (s : Store) : List StoredInstance :=
  s.table.toList.mergeSort fun a b => a.record.key.le b.record.key

/-- Hands out the outbox. -/
def drain (s : Store) : List Envelope × Store := (s.outbox, { s with outbox := [] })

/-- Replaces the rows. Of several rows under one key the last one counts. -/
def restore (s : Store) (rows : List StoredInstance) : Store :=
  { s with table := .ofList rows }

end Store

end Saga
