/-!
# Workflow instances

An instance is a row under a key: the correlation id that picked it and the partition of its
definition. Keys are ordered by correlation id and then by definition, both as byte strings
(`InstanceKey.le`), which is a total order.
-/

namespace Saga

/-- The key of an instance. One correlation id may drive instances of several definitions. -/
structure InstanceKey where
  correlationId : String
  definition : String
  deriving DecidableEq, Repr

namespace InstanceKey

/-- The key as it is shown. -/
def path (key : InstanceKey) : String := s!"{key.correlationId}/{key.definition}"

/-- The order in which rows are listed. Code points compare as their UTF-8 bytes do. -/
def le (a b : InstanceKey) : Bool :=
  a.correlationId < b.correlationId ||
    (a.correlationId = b.correlationId && a.definition ≤ b.definition)

end InstanceKey

/-- A row as the engine sees it: the state by its ordinal, and the version at which it was read. -/
structure InstanceRecord where
  key : InstanceKey
  state : Int32
  version : Nat
  deriving DecidableEq, Repr

namespace InstanceRecord

/-- A row about to be added. -/
def fresh (key : InstanceKey) (state : Int32) : InstanceRecord := ⟨key, state, 0⟩

/-- The same row moved to `state`, still at the version at which it was read. -/
def withState (r : InstanceRecord) (state : Int32) : InstanceRecord := { r with state }

end InstanceRecord

/-- A point in time, in milliseconds since 1970. -/
abbrev Timestamp := Int64

/-- A committed row with the times of its first and its last write. -/
structure StoredInstance where
  record : InstanceRecord
  createdAt : Timestamp
  updatedAt : Timestamp
  deriving DecidableEq, Repr

end Saga
