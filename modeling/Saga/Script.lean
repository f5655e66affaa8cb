import Saga.Envelope
import Saga.Identity
import Saga.Log
import Saga.Services

/-!
# Scripts

A rule's action is a script, and so is a whole dispatch: a program whose only way to the world
around it is to make a `Request` and go on with the answer, or to change the state of the
application. Scripts are data, so what a program may do can be said of the script, before anything
runs it, and several of them can take turns.

The parameters are the state `σ` of the application and the type `M` of its messages.
-/

namespace Saga

/-- The services that a delivery can offer to an action. -/
inductive ServiceName where
  /-- Looks up instances and stages their writes. -/
  | repository
  /-- Commits what was staged. -/
  | unitOfWork
  | commandSender
  | notificationPublisher
  /-- A service of the application. -/
  | application (name : String)
  deriving DecidableEq, Repr

/-- The name that error texts show for a service. -/
def ServiceName.label : ServiceName → String
  | repository => "dyn corrflow_core::persistence::InstanceRepository"
  | unitOfWork => "dyn corrflow_core::persistence::UnitOfWork"
  | commandSender => "dyn corrflow_core::transport::CommandSender"
  | notificationPublisher => "dyn corrflow_core::transport::NotificationPublisher"
  | application name => name

instance : ServiceKey ServiceName := ⟨ServiceName.label⟩

/-- What a script can ask of the delivery that runs it. -/
inductive Request (M : Type) where
  | find (key : InstanceKey)
  | add (record : InstanceRecord)
  | update (record : InstanceRecord)
  | send (command : Envelope)
  | publish (notification : Envelope)
  /-- Commits the session of the delivery. -/
  | commit
  /-- Cancels the delivery. -/
  | cancel
  | isCancelled
  /-- Asks for a service that must be there. -/
  | require (service : ServiceName)
  /-- Asks whether a service is there. -/
  | provides (service : ServiceName)
  /-- Has another definition handle a message in a session of its own. -/
  | forward (definition : DefinitionId) (message : M)
  | report (entry : LogEntry)

/-- The type of the answer to a request. -/
@[reducible]
def Request.Answer {M : Type} : Request M → Type
  | find _ => Option InstanceRecord
  | isCancelled => Bool
  | provides _ => Bool
  | forward _ _ => String
  | _ => Unit

/-- A program of a delivery: it ends with a result or fails with an `ε`. -/
inductive Script (σ M ε α : Type) where
  | done (result : α)
  | fail (cause : ε)
  /-- Changes the state of the application and goes on with what it was. -/
  | app (change : σ → σ) (next : σ → Script σ M ε α)
  /-- Makes a request and goes on with its answer, or with the error it met. -/
  | request (r : Request M) (next : Except EngineError r.Answer → Script σ M ε α)

/-- What a script can fail with: an engine error, or something that an engine error can be. -/
class FromEngine (ε : Type) where
  ofEngine : EngineError → ε

instance : FromEngine EngineError := ⟨id⟩

instance : FromEngine Failure := ⟨Failure.engine⟩

namespace Script

variable {σ M ε ε' α β : Type}

/-- Runs one script and then the one made from its result. -/
protected def bind : Script σ M ε α → (α → Script σ M ε β) → Script σ M ε β
  | done a, f => f a
  | fail cause, _ => fail cause
  | app change next, f => app change fun s => (next s).bind f
  | request r next, f => request r fun answer => (next answer).bind f

instance : Monad (Script σ M ε) where
  pure := done
  bind := Script.bind

/-- The script whose failures are put in other terms. -/
def mapError (f : ε → ε') : Script σ M ε α → Script σ M ε' α
  | done a => done a
  | fail cause => fail (f cause)
  | app change next => app change fun s => (next s).mapError f
  | request r next => request r fun answer => (next answer).mapError f

/-- Makes a request and takes the error that it meets for an answer. -/
def attempt (r : Request M) : Script σ M ε (Except EngineError r.Answer) := request r done

/-- The state of the application. -/
def state : Script σ M ε σ := app id done

/-- Changes the state of the application. -/
def modify (change : σ → σ) : Script σ M ε Unit := app change fun _ => done ()

variable [FromEngine ε]

/-- Goes on with a result, or fails with an engine error. -/
def ofExcept : Except EngineError α → Script σ M ε α
  | .ok a => done a
  | .error e => fail (FromEngine.ofEngine e)

/-- Makes a request and fails with the error that it meets. -/
def ask (r : Request M) : Script σ M ε r.Answer := request r ofExcept

/-- Looks up an instance. -/
def find (key : InstanceKey) : Script σ M ε (Option InstanceRecord) := ask (.find key)

/-- Stages the adding of a row. -/
def add (record : InstanceRecord) : Script σ M ε Unit := ask (.add record)

/-- Stages the update of a row. -/
def update (record : InstanceRecord) : Script σ M ε Unit := ask (.update record)

/-- Commits the session of the delivery. -/
def commit : Script σ M ε Unit := ask .commit

/-- Cancels the delivery. -/
def cancel : Script σ M ε Unit := ask .cancel

/-- Fails once the delivery was cancelled. -/
def checkLive : Script σ M ε Unit :=
  Script.bind (ask .isCancelled) fun cancelled =>
    match (cancelled : Bool) with
    | true => fail (FromEngine.ofEngine .cancelled)
    | false => done ()

/-- Asks for a service that must be there. -/
def require (service : ServiceName) : Script σ M ε Unit := ask (.require service)

/-- Asks whether a service is there. -/
def provides (service : ServiceName) : Script σ M ε Bool := ask (.provides service)

/-- Adds an entry to the log. -/
def report (severity : Severity) (source : LogSource) (text : String) : Script σ M ε Unit :=
  ask (.report ⟨severity, source, text⟩)

/-- Sends a command. An envelope that could not be made fails only once the sender is there. -/
def send (envelope : Except EngineError Envelope) : Script σ M ε Unit := do
  require .commandSender
  ask (.send (← ofExcept envelope))

/-- Publishes a notification. An envelope that could not be made fails only once the publisher is
there. -/
def publish (envelope : Except EngineError Envelope) : Script σ M ε Unit := do
  require .notificationPublisher
  ask (.publish (← ofExcept envelope))

end Script

/-- What a rule does with the message that triggers it. -/
abbrev Action (σ M : Type) := M → Script σ M Failure Unit

namespace Action

variable {σ M α : Type} [Payload α]

/-- Sends the command made from the message. -/
def sendCommand (make : M → α) : Action σ M := fun m => Script.send (Envelope.command (make m))

/-- Publishes the notification made from the message. -/
def publishNotification (make : M → α) : Action σ M :=
  fun m => Script.publish (Envelope.notification (make m))

end Action

end Saga
