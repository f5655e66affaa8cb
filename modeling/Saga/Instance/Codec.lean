import Saga.Instance
import Saga.Json.Record

/-!
# Rows in writing

Keys, records and stored rows as JSON records, with their fields in a fixed order.
-/

namespace Saga

/-- The bound below which versions and counts are written: 64-bit words. -/
def wordBound : Nat := UInt64.size

/-- The written form of a key. -/
def InstanceKey.toJson (key : InstanceKey) : Json :=
  .obj [("correlation_id", .str key.correlationId), ("definition", .str key.definition)]

/-- Reads a key. -/
def InstanceKey.ofJson (v : Json) : Except Json.Fault InstanceKey := do
  match ← v.slots ["correlation_id", "definition"] with
  | [correlationId, definition] =>
    return {
      correlationId := ← correlationId.required Json.asText
      definition := ← definition.required Json.asText
    }
  | _ => throw .malformed

/-- The written form of a record. -/
def InstanceRecord.toJson (r : InstanceRecord) : Json :=
  .obj [("key", r.key.toJson), ("state", .int r.state.toInt), ("version", .int r.version)]

/-- Reads a record. -/
def InstanceRecord.ofJson (v : Json) : Except Json.Fault InstanceRecord := do
  match ← v.slots ["key", "state", "version"] with
  | [key, state, version] =>
    return {
      key := ← key.required InstanceKey.ofJson
      state := ← state.required Json.asInt32
      version := ← version.required (Json.asNat wordBound)
    }
  | _ => throw .malformed

/-- The written form of a stored row. -/
def StoredInstance.toJson (row : StoredInstance) : Json :=
  .obj [("record", row.record.toJson), ("created_at", .int row.createdAt.toInt),
    ("updated_at", .int row.updatedAt.toInt)]

/-- Reads a stored row. -/
def StoredInstance.ofJson (v : Json) : Except Json.Fault StoredInstance := do
  match ← v.slots ["record", "created_at", "updated_at"] with
  | [record, createdAt, updatedAt] =>
    return {
      record := ← record.required InstanceRecord.ofJson
      createdAt := ← createdAt.required Json.asInt64
      updatedAt := ← updatedAt.required Json.asInt64
    }
  | _ => throw .malformed

end Saga
