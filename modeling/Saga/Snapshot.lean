import Saga.Checksum
import Saga.Files
import Saga.Instance.Codec
import Saga.Json.Bytes
import Saga.Json.Printer
import Saga.Log
import Saga.Store

/-!
# Snapshots

A snapshot is the table of instances in a data file, with a sidecar that gives the number of rows
and the checksum of the data. Reading checks the data against the sidecar before it looks at the
rows. Neither the outbox nor the number of commits is part of a snapshot.
-/

namespace Saga

/-- What the sidecar of a snapshot says. -/
structure SnapshotMeta where
  instanceCount : Nat
  createdAt : Timestamp
  sizeBytes : Nat
  checksum : String
  deriving DecidableEq, Repr

namespace SnapshotMeta

/-- The written form of a sidecar. -/
def toJson (m : SnapshotMeta) : Json :=
  .obj [("instance_count", .int m.instanceCount), ("created_at", .int m.createdAt.toInt),
    ("size_bytes", .int m.sizeBytes), ("checksum", .str m.checksum)]

/-- Reads a sidecar. -/
def ofJson (v : Json) : Except Json.Fault SnapshotMeta := do
  match ← v.slots ["instance_count", "created_at", "size_bytes", "checksum"] with
  | [instanceCount, createdAt, sizeBytes, checksum] =>
    return {
      instanceCount := ← instanceCount.required (Json.asNat wordBound)
      createdAt := ← createdAt.required Json.asInt64
      sizeBytes := ← sizeBytes.required (Json.asNat wordBound)
      checksum := ← checksum.required Json.asText
    }
  | _ => throw .malformed

end SnapshotMeta

/-- The files, and the log of what was done to them. -/
structure Disk where
  files : Files := {}
  log : List LogEntry := []

/-- Work on files. -/
abbrev DiskRun := EStateM StoreError Disk

namespace Snapshot

/-- The bytes of the data file for some rows. -/
def data (rows : List StoredInstance) : List UInt8 :=
  Utf8.encode (Json.pretty (.arr (rows.map StoredInstance.toJson)))

/-- What the sidecar says about a data file of so many rows. -/
def describe (count : Nat) (data : List UInt8) (now : Timestamp) : SnapshotMeta where
  instanceCount := count
  createdAt := now
  sizeBytes := data.length
  checksum := Checksum.hex (Checksum.crc32c data)

/-- The bytes of a sidecar. -/
def sidecar (m : SnapshotMeta) : List UInt8 := Utf8.encode (Json.pretty m.toJson)

/-- The path of the sidecar of the snapshot at a path. -/
def sidecarPath (path : String) : String := path ++ ".meta.json"

/-- The value that the bytes of a file hold. -/
def parse {α : Type} (read : Json → Except Json.Fault α) (bytes : List UInt8) :
    Except StoreError α :=
  match Json.ofBytes? bytes with
  | none => .error (.json .malformed)
  | some v =>
    match read v with
    | .ok a => .ok a
    | .error fault => .error (.json fault)

/-- The rows of a snapshot from the bytes of its two files. -/
def decode (path : String) (data sidecar : List UInt8) :
    Except StoreError (List StoredInstance) := do
  let m ← parse SnapshotMeta.ofJson sidecar
  let actual := Checksum.hex (Checksum.crc32c data)
  if actual != m.checksum then
    throw (.corruption
      s!"snapshot {path} checksum mismatch: expected {m.checksum}, got {actual}")
  let rows ← parse (Json.asList StoredInstance.ofJson) data
  if rows.length != m.instanceCount then
    throw (.corruption
      s!"snapshot {path} holds {rows.length} instances, metadata says {m.instanceCount}")
  return rows

/-- Works on the files of the disk. -/
def onFiles {α : Type} (run : FileRun α) : DiskRun α := fun disk =>
  match run disk.files with
  | .ok a files => .ok a { disk with files }
  | .error fault files => .error (.io fault.message) { disk with files }

/-- The bytes of the file at a path. -/
def readFile (path : String) : DiskRun (List UInt8) := onFiles do
  match (← get).read path with
  | .ok bytes => return bytes
  | .error fault => throw fault

/-- Writes rows to a path, and their sidecar next to it. -/
def write (path : String) (rows : List StoredInstance) (now : Timestamp) :
    DiskRun SnapshotMeta := do
  onFiles (Files.makeParents path)
  let bytes := data rows
  onFiles (Files.write path bytes)
  let m := describe rows.length bytes now
  onFiles (Files.write (sidecarPath path) (sidecar m))
  modify fun disk => { disk with
    log := disk.log ++ [⟨.info, .snapshot,
      s!"Wrote snapshot of {m.instanceCount} instances to {path}"⟩] }
  return m

/-- Reads the rows at a path. -/
def read (path : String) : DiskRun (List StoredInstance) := do
  let bytes ← readFile path
  let beside ← readFile (sidecarPath path)
  match decode path bytes beside with
  | .ok rows => return rows
  | .error e => throw e

end Snapshot

namespace Store

/-- Writes the rows of the store to a path. -/
def saveSnapshot (s : Store) (path : String) (now : Timestamp) : DiskRun SnapshotMeta :=
  Snapshot.write path s.instances now

/-- Replaces the rows of the store by those at a path. The answer counts the rows that were read. -/
def loadSnapshot (s : Store) (path : String) : DiskRun (Nat × Store) := do
  let rows ← Snapshot.read path
  return (rows.length, s.restore rows)

end Store

end Saga
