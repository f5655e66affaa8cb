import Saga.Instance
import Saga.Json.Basic

/-!
# Errors

The causes for which compiling a definition, dispatching a message or keeping rows can fail, each
with its wording (`message`). An action may fail in words of its own or with an engine error, under
any number of context notes; `Failure.recover?` is the engine error that the notes hide.
-/

namespace Saga

/-- Defects of a definition, found while its rules are compiled. -/
inductive BuildError where
  | duplicateStart (definition message : String)
  | duplicateTransfer (definition state message : String)
  | targetAlreadySet (definition state message : String)
  | duplicateCorrelation (definition message : String)
  | duplicateDefinitionName (definition : String)
  /-- The observed messages without a selector, and the selectors of messages no rule observes. -/
  | correlationMismatch (definition : String) (missing extra : List String)
  deriving DecidableEq, Repr

/-- The wording of a build error. -/
def BuildError.message : BuildError → String
  | duplicateStart d m => s!"{d}: a startup rule for '{m}' is already registered"
  | duplicateTransfer d s m =>
    s!"{d}: a transition rule for '{m}' in state '{s}' is already registered"
  | targetAlreadySet d s m => s!"{d}: target state of the '{m}' rule in state '{s}' is already set"
  | duplicateCorrelation d m => s!"{d}: a correlation selector for '{m}' is already registered"
  | duplicateDefinitionName d => s!"{d}: name is already used by another workflow definition"
  | correlationMismatch d missing extra =>
    s!"{d}: correlation selectors do not match the observed messages (missing: [" ++
      ", ".intercalate missing ++ "], extra: [" ++ ", ".intercalate extra ++ "])"

/-- The name of a build error. -/
def BuildError.name : BuildError → String
  | duplicateStart .. => "DuplicateStart"
  | duplicateTransfer .. => "DuplicateTransfer"
  | targetAlreadySet .. => "TargetAlreadySet"
  | duplicateCorrelation .. => "DuplicateCorrelation"
  | duplicateDefinitionName _ => "DuplicateDefinitionName"
  | correlationMismatch .. => "CorrelationMismatch"

mutual

/-- Why running a blueprint or dispatching a message failed. -/
inductive EngineError where
  | build (cause : BuildError)
  | blankCorrelationId (definition message : String)
  | missingCorrelation (definition message : String)
  | unknownStateOrdinal (definition : String) (ordinal : Int32)
  | serviceNotRegistered (service : String)
  | actionFailed (definition message : String) (index : Nat) (cause : Failure)
  | cancelled
  | conflict (key : InstanceKey) (expected actual : Nat)
  | instanceExists (key : InstanceKey)
  | instanceNotFound (key : InstanceKey)
  | alreadyCommitted
  | blueprintTypeMismatch (definition : String)
  | persistence (detail : String)
  | transport (detail : String)
  | json (fault : Json.Fault)

/-- Why an action failed. -/
inductive Failure where
  | text (words : String)
  | engine (cause : EngineError)
  /-- A note put over another failure; the note is what is shown. -/
  | context (note : String) (inner : Failure)

end

mutual

/-- The wording of an engine error. -/
def EngineError.message : EngineError → String
  | .build cause => "blueprint build failed: " ++ cause.message
  | .blankCorrelationId d m => s!"{d}: correlation id extracted from '{m}' is blank"
  | .missingCorrelation d m => s!"{d}: no correlation selector for '{m}'"
  | .unknownStateOrdinal d o =>
    s!"{d}: stored state ordinal {o.toInt} is not a member of the state set"
  | .serviceNotRegistered service => "service not registered: " ++ service
  | .actionFailed d m i cause => s!"{d}: action #{i} for '{m}' failed: " ++ cause.message
  | .cancelled => "operation cancelled"
  | .conflict key expected actual =>
    s!"concurrency conflict on {key.path}: expected version {expected}, actual {actual}"
  | .instanceExists key => "instance already exists: " ++ key.path
  | .instanceNotFound key => "instance not found: " ++ key.path
  | .alreadyCommitted => "unit of work already committed"
  | .blueprintTypeMismatch d => s!"cached blueprint for {d} has a different state type"
  | .persistence detail => "persistence error: " ++ detail
  | .transport detail => "transport error: " ++ detail
  | .json fault => "JSON error: " ++ fault.message

/-- What is shown of a failure: its outermost note, or its own words. -/
def Failure.message : Failure → String
  | .text words => words
  | .engine cause => cause.message
  | .context note _ => note

end

/-- The engine error at the bottom of a failure, whatever notes were put over it. -/
def Failure.recover? : Failure → Option EngineError
  | .text _ => none
  | .engine cause => some cause
  | .context _ inner => inner.recover?

namespace EngineError

/-- Whether delivering the message again may succeed. -/
def isRetryable : EngineError → Bool
  | .conflict .. => true
  | .instanceExists _ => true
  | .persistence _ => true
  | .transport _ => true
  | _ => false

/-- The name of an engine error, finer than its code. -/
def name : EngineError → String
  | .build _ => "Build"
  | .blankCorrelationId .. => "BlankCorrelationId"
  | .missingCorrelation .. => "MissingCorrelation"
  | .unknownStateOrdinal .. => "UnknownStateOrdinal"
  | .serviceNotRegistered _ => "ServiceNotRegistered"
  | .actionFailed .. => "ActionFailed"
  | .cancelled => "Cancelled"
  | .conflict .. => "Conflict"
  | .instanceExists _ => "InstanceExists"
  | .instanceNotFound _ => "InstanceNotFound"
  | .alreadyCommitted => "AlreadyCommitted"
  | .blueprintTypeMismatch _ => "BlueprintTypeMismatch"
  | .persistence _ => "Persistence"
  | .transport _ => "Transport"
  | .json _ => "Json"

/-- The stable code for logs and dead-letter headers. -/
def code : EngineError → String
  | .build _ => "BUILD_FAILED"
  | .blankCorrelationId .. => "BLANK_CORRELATION_ID"
  | .missingCorrelation .. => "MISSING_CORRELATION"
  | .unknownStateOrdinal .. => "UNKNOWN_STATE"
  | .serviceNotRegistered _ => "SERVICE_NOT_REGISTERED"
  | .actionFailed .. => "ACTION_FAILED"
  | .cancelled => "CANCELLED"
  | .conflict .. => "CONFLICT"
  | .instanceExists _ => "CONFLICT"
  | .instanceNotFound _ => "INSTANCE_NOT_FOUND"
  | .alreadyCommitted => "ALREADY_COMMITTED"
  | .blueprintTypeMismatch _ => "BUILD_FAILED"
  | .persistence _ => "PERSISTENCE_ERROR"
  | .transport _ => "TRANSPORT_ERROR"
  | .json _ => "BAD_MESSAGE"

/-- The error of a rule whose action at `index` failed: a cancellation stays one, another engine
error becomes the cause itself, and any other failure is the cause as it is. -/
def ofAction (definition message : String) (index : Nat) (failure : Failure) : EngineError :=
  match failure.recover? with
  | some .cancelled => .cancelled
  | some cause => .actionFailed definition message index (.engine cause)
  | none => .actionFailed definition message index failure

end EngineError

/-- Why rows could not be kept or a snapshot not be read. -/
inductive StoreError where
  | io (detail : String)
  | json (fault : Json.Fault)
  | corruption (detail : String)
  | instanceExists (key : InstanceKey)
  | instanceNotFound (key : InstanceKey)
  | conflict (key : InstanceKey) (expected actual : Nat)
  | alreadyCommitted
  deriving DecidableEq, Repr

namespace StoreError

/-- The wording of a store error. -/
def message : StoreError → String
  | io detail => "I/O error: " ++ detail
  | json fault => "JSON error: " ++ fault.message
  | corruption detail => "data corruption: " ++ detail
  | instanceExists key => "instance already exists: " ++ key.path
  | instanceNotFound key => "instance not found: " ++ key.path
  | conflict key expected actual =>
    s!"version conflict on {key.path}: expected {expected}, actual {actual}"
  | alreadyCommitted => "session already committed"

/-- The name of a store error. -/
def name : StoreError → String
  | io _ => "Io"
  | json _ => "Json"
  | corruption _ => "Corruption"
  | instanceExists _ => "InstanceExists"
  | instanceNotFound _ => "InstanceNotFound"
  | conflict .. => "Conflict"
  | alreadyCommitted => "AlreadyCommitted"

/-- The engine error that a store error becomes when it leaves the store. -/
def toEngine : StoreError → EngineError
  | instanceExists key => .instanceExists key
  | instanceNotFound key => .instanceNotFound key
  | conflict key expected actual => .conflict key expected actual
  | alreadyCommitted => .alreadyCommitted
  | e => .persistence e.message

end StoreError

end Saga
