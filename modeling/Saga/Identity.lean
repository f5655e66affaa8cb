/-!
# Identities

Message types and workflow definitions are known by a name. The name alone does not settle which
one is meant, since two of them may share it, so each identity also carries a tag.
-/

namespace Saga

/-- The identity of a message type. -/
structure MessageType where
  name : String
  tag : Nat := 0
  deriving DecidableEq, Repr

/-- The identity of a workflow definition. Its name is the partition in which the rows of its
instances are kept. -/
structure DefinitionId where
  name : String
  tag : Nat := 0
  deriving DecidableEq, Repr

/-- The messages of an application: each one has a type. -/
class Message (M : Type) where
  type : M → MessageType

end Saga
