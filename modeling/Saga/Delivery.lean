import Saga.Registry
import Saga.Session

/-!
# Deliveries

An `Engine` is what all deliveries share: the store, the registry of blueprints, the state of the
application, the clock and the log. A `Delivery` is the engine as one delivery sees it, together
with the session and the cancellation flag that are the delivery's own. What a delivery does is a
`Run`: it ends with a result or an error and in either case with a delivery, so whatever happened
before a failure stays.

The services of a delivery are runs too. `Scope.ofSession` offers those of the session itself;
`Script.run` gives a script the answers to its requests.
-/

namespace Saga

/-- What all deliveries share. -/
structure Engine (σ M : Type) where
  store : Store := {}
  registry : Registry σ M := {}
  app : σ
  now : Timestamp := 0
  log : List LogEntry := []

/-- The engine as one delivery sees it. -/
structure Delivery (σ M : Type) extends Engine σ M where
  session : Session := {}
  cancelled : Bool := false

/-- A new delivery on the engine, with a fresh session. -/
def Engine.delivery {σ M : Type} (e : Engine σ M) (cancelled : Bool) : Delivery σ M :=
  { e with cancelled }

/-- The work of a delivery. -/
abbrev Run (σ M α : Type) := EStateM EngineError (Delivery σ M) α

/-- A run that gives a result as it is. -/
def Run.ofExcept {σ M α : Type} : Except EngineError α → Run σ M α
  | .ok a => pure a
  | .error e => throw e

namespace Delivery

variable {σ M α : Type}

/-- The delivery with an entry more in the log. -/
def logged (d : Delivery σ M) (severity : Severity) (source : LogSource) (text : String) :
    Delivery σ M :=
  { d with log := d.log ++ [⟨severity, source, text⟩] }

/-- Adds an entry to the log. -/
def report (severity : Severity) (source : LogSource) (text : String) : Run σ M Unit :=
  modify fun d => d.logged severity source text

/-- Cancels the delivery. -/
def cancel : Run σ M Unit := modify fun d => { d with cancelled := true }

/-- Looks up an instance through the session. -/
def find (key : InstanceKey) : Run σ M (Option InstanceRecord) := do
  let d ← get
  Run.ofExcept (d.session.find d.store d.cancelled key)

/-- Stages a write in the session. -/
def stage (write : StagedWrite) : Run σ M Unit := do
  let d ← get
  let session ← Run.ofExcept (d.session.stage write)
  set { d with session }

/-- Stages a message in the session. -/
def enqueue (message : Envelope) : Run σ M Unit := do
  let d ← get
  let session ← Run.ofExcept (d.session.enqueue d.cancelled message)
  set { d with session }

/-- Commits the session. -/
def commit : Run σ M Unit := do
  let d ← get
  let (session, store) ← Run.ofExcept (d.session.commit d.store d.cancelled d.now)
  set { d with session, store }
  report .debug .store
    s!"Committed {d.session.writes.length} instance writes and {
      d.session.messages.length} outbound messages"

/-- What a look-up does to a delivery: it reads through the session and leaves all as it is. -/
theorem find_apply (key : InstanceKey) (d : Delivery σ M) :
    Delivery.find key d =
      match d.session.find d.store d.cancelled key with
      | .ok record => .ok record d
      | .error e => .error e d := by
  show Run.ofExcept (d.session.find d.store d.cancelled key) d = _
  cases d.session.find d.store d.cancelled key <;> rfl

/-- What staging a write does to a delivery: only the session changes, if it takes the write. -/
theorem stage_apply (write : StagedWrite) (d : Delivery σ M) :
    Delivery.stage write d =
      match d.session.stage write with
      | .ok session => .ok () { d with session }
      | .error e => .error e d := by
  show EStateM.bind (Run.ofExcept (d.session.stage write)) _ d = _
  cases d.session.stage write <;> rfl

/-- What posting a message does to a delivery: only the session changes, if it takes the message. -/
theorem enqueue_apply (message : Envelope) (d : Delivery σ M) :
    Delivery.enqueue message d =
      match d.session.enqueue d.cancelled message with
      | .ok session => .ok () { d with session }
      | .error e => .error e d := by
  show EStateM.bind (Run.ofExcept (d.session.enqueue d.cancelled message)) _ d = _
  cases d.session.enqueue d.cancelled message <;> rfl

/-- A commit that fails leaves the delivery as it was; one that succeeds also writes to the log. -/
theorem commit_apply (d : Delivery σ M) :
    Delivery.commit d =
      match d.session.commit d.store d.cancelled d.now with
      | .ok (session, store) =>
        .ok () ({ d with session, store }.logged .debug .store
          s!"Committed {d.session.writes.length} instance writes and {
            d.session.messages.length} outbound messages")
      | .error e => .error e d := by
  show EStateM.bind (Run.ofExcept (d.session.commit d.store d.cancelled d.now)) _ d = _
  cases d.session.commit d.store d.cancelled d.now <;> rfl

/-- Runs with a fresh session, and comes back to the session of the delivery. -/
def inFreshSession (run : Run σ M α) : Run σ M α := fun d =>
  match run { d with session := {} } with
  | .ok a d' => .ok a { d' with session := d.session }
  | .error e d' => .error e { d' with session := d.session }

/-- Runs as a delivery of its own on the same engine: with a fresh session, and not cancelled. -/
def isolated (run : Run σ M α) : Run σ M α := fun d =>
  match run { d with session := {}, cancelled := false } with
  | .ok a d' => .ok a { d' with session := d.session, cancelled := d.cancelled }
  | .error e d' => .error e { d' with session := d.session, cancelled := d.cancelled }

end Delivery

/-- Looks up instances and stages their writes. -/
structure Repository (σ M : Type) where
  find : InstanceKey → Run σ M (Option InstanceRecord)
  add : InstanceRecord → Run σ M Unit
  update : InstanceRecord → Run σ M Unit

/-- What each service of a delivery is. -/
@[reducible]
def ServiceName.Provider (σ M : Type) : ServiceName → Type
  | repository => Repository σ M
  | unitOfWork => Run σ M Unit
  | commandSender => Envelope → Run σ M Unit
  | notificationPublisher => Envelope → Run σ M Unit
  | application _ => Unit

/-- What a delivery offers to the actions it runs. -/
structure Scope (σ M : Type) where
  services : Services (ServiceName.Provider σ M)
  /-- Has another definition handle a message. -/
  forward : DefinitionId → M → Run σ M String

variable {σ M : Type}

/-- The repository that the session is. -/
def Repository.ofSession : Repository σ M where
  find := Delivery.find
  add record := Delivery.stage (.add record)
  update record := Delivery.stage (.update record)

/-- The services of the session, after those of the application. -/
def Services.ofSession (application : List String) : Services (ServiceName.Provider σ M) :=
  let base : Services (ServiceName.Provider σ M) :=
    application.foldl (fun s name => s.insert (.application name) ()) Services.empty
  base
    |>.insert .repository (Repository.ofSession : Repository σ M)
    |>.insert .unitOfWork (Delivery.commit : Run σ M Unit)
    |>.insert .commandSender (Delivery.enqueue : Envelope → Run σ M Unit)
    |>.insert .notificationPublisher (Delivery.enqueue : Envelope → Run σ M Unit)

namespace Scope

/-- Resolves a service that must be there. -/
def require (scope : Scope σ M) (name : ServiceName) : Run σ M (name.Provider σ M) :=
  Run.ofExcept (scope.services.require name)

/-- The answer to a request. -/
def perform (scope : Scope σ M) : (r : Request M) → Run σ M r.Answer
  | .find key => do (← scope.require .repository : Repository σ M).find key
  | .add record => do (← scope.require .repository : Repository σ M).add record
  | .update record => do (← scope.require .repository : Repository σ M).update record
  | .send command => do
    let sender : Envelope → Run σ M Unit ← scope.require .commandSender
    sender command
  | .publish notification => do
    let publisher : Envelope → Run σ M Unit ← scope.require .notificationPublisher
    publisher notification
  | .commit => do
    let unit : Run σ M Unit ← scope.require .unitOfWork
    unit
  | .cancel => Delivery.cancel
  | .isCancelled => do
    let d ← get
    return d.cancelled
  | .require service => do
    let _ ← scope.require service
    return ()
  | .provides service => pure (scope.services.contains service)
  | .forward definition message => scope.forward definition message
  | .report entry => Delivery.report entry.severity entry.source entry.text

end Scope

/-- Runs a script: requests are answered by the scope, an error goes back to the script. -/
def Script.run {ε α : Type} (scope : Scope σ M) : Script σ M ε α → EStateM ε (Delivery σ M) α
  | .done a => pure a
  | .fail cause => throw cause
  | .app change next => fun d => (next d.app).run scope { d with app := change d.app }
  | .request r next => fun d =>
    match scope.perform r d with
    | .ok answer d' => (next (.ok answer)).run scope d'
    | .error e d' => (next (.error e)).run scope d'

end Saga
