import Saga.Blueprint

/-!
# Dispatching messages

One dispatch takes a message to the instance it belongs to: it fetches the blueprint, finds the
correlation id, looks the instance up, runs the rule that matches, stages the instance write and
commits. Whatever fails before the commit leaves the store as it was. All that follows the blueprint
is one script, `Definition.script`, so the requests of several dispatches can take turns.
-/

namespace Saga

/-- How a dispatch treats instances that a message does not move. -/
structure DispatchOptions where
  /-- Whether an instance without a matching rule is written back with its state unchanged. -/
  persistUnchanged : Bool := true
  deriving DecidableEq, Repr

/-- What a dispatch did. -/
inductive Outcome (S : StateSet) where
  /-- A startup rule created the instance. -/
  | started (correlationId : String) (state : S.State)
  /-- A transition rule ran. -/
  | transferred (correlationId : String) (source target : S.State)
  /-- The instance has no rule for the message in its state. -/
  | ignored (correlationId : String) (state : S.State) (persisted : Bool)
  /-- There is no instance, and the message starts none. -/
  | dropped (correlationId : String)
  deriving DecidableEq

/-- The outcome in words. -/
def Outcome.summary {S : StateSet} : Outcome S → String
  | started id state => s!"{id}: started in {state.name}"
  | transferred id source target => s!"{id}: {source.name} -> {target.name}"
  | ignored id state _ => s!"{id}: ignored in {state.name}"
  | dropped id => s!"{id}: dropped"

/-- Whether a dispatch with this outcome writes to its instance. -/
def Outcome.writes {S : StateSet} : Outcome S → Bool
  | started .. => true
  | transferred .. => true
  | ignored _ _ persisted => persisted
  | dropped _ => false

namespace Definition

variable {σ M : Type} [Message M]

/-- The state that a stored ordinal stands for. -/
def decodeState (d : Definition σ M) (ordinal : Int32) : Except EngineError d.states.State :=
  match d.states.ofOrdinal? ordinal with
  | some state => .ok state
  | none => .error (.unknownStateOrdinal d.id.name ordinal)

/-- Takes a message to an instance that was found. -/
def moveOn (d : Definition σ M) (options : DispatchOptions) (b : Blueprint σ M d.states)
    (key : InstanceKey) (m : M) (record : InstanceRecord) :
    Script σ M EngineError (Outcome d.states) := do
  let current ← Script.ofExcept (d.decodeState record.state)
  let next ← b.transfer current m
  if b.handlesTransfer current (Message.type m) then
    Script.checkLive
    Script.update (record.withState next.ordinal)
    return .transferred key.correlationId current next
  else
    Script.report .debug .dispatcher
      s!"{key.path}: no rule for {(Message.type m).name} in state {current.name}"
    if options.persistUnchanged then
      Script.checkLive
      Script.update (record.withState next.ordinal)
      return .ignored key.correlationId current true
    else return .ignored key.correlationId current false

/-- Takes a message to a key without an instance. -/
def begin (d : Definition σ M) (b : Blueprint σ M d.states) (key : InstanceKey) (m : M) :
    Script σ M EngineError (Outcome d.states) := do
  match ← b.start m with
  | some initial =>
    Script.checkLive
    Script.add (.fresh key initial.ordinal)
    return .started key.correlationId initial
  | none =>
    Script.report .debug .dispatcher
      s!"{key.path}: {(Message.type m).name} starts nothing, dropped"
    return .dropped key.correlationId

/-- Takes a message to what was found under its key. -/
def react (d : Definition σ M) (options : DispatchOptions) (b : Blueprint σ M d.states)
    (key : InstanceKey) (m : M) : Option InstanceRecord → Script σ M EngineError (Outcome d.states)
  | some record => d.moveOn options b key m record
  | none => d.begin b key m

/-- Commits what was staged for an outcome, if anything was. -/
def conclude (d : Definition σ M) (outcome : Outcome d.states) :
    Script σ M EngineError (Outcome d.states) :=
  if outcome.writes then do
    Script.commit
    Script.report .debug .dispatcher s!"{d.id.name}: {outcome.summary}"
    return outcome
  else return outcome

/-- Finds the instance that a message belongs to: its key, and its row if there is one. -/
def locate (d : Definition σ M) (b : Blueprint σ M d.states) (m : M) :
    Script σ M EngineError (InstanceKey × Option InstanceRecord) := do
  let id ← Script.ofExcept (b.correlate m)
  Script.require .repository
  Script.require .unitOfWork
  Script.checkLive
  let found ← Script.find ⟨id, d.id.name⟩
  return (⟨id, d.id.name⟩, found)

/-- The script of a dispatch that has its blueprint. -/
def script (d : Definition σ M) (options : DispatchOptions) (b : Blueprint σ M d.states) (m : M) :
    Script σ M EngineError (Outcome d.states) := do
  let located ← d.locate b m
  let outcome ← d.react options b located.1 m located.2
  d.conclude outcome

/-- Dispatches a message to the instances of a definition. -/
def dispatch (d : Definition σ M) (options : DispatchOptions) (scope : Scope σ M) (m : M) :
    Run σ M (Outcome d.states) := do
  let b ← Registry.blueprint d (Message.type m)
  (d.script options b m).run scope

/-- Dispatches a message and puts the outcome in words. -/
def handle (d : Definition σ M) (options : DispatchOptions) (scope : Scope σ M) (m : M) :
    Run σ M String := do
  return (← d.dispatch options scope m).summary

end Definition

end Saga
