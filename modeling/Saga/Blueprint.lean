import Saga.Delivery
import Saga.Text.Blank

/-!
# Blueprints at work

What a blueprint answers about its rules, and what it makes of a message: `correlate` finds the
instance that the message belongs to, `start` and `transfer` are the scripts of the matching rule.
Such a script takes the actions of the rule strictly in order, up to the first that fails, and ends
with the state that the rule leads to. `Registry.blueprint` keeps the compiled blueprints.
-/

namespace Saga

/-- The script of actions in order, the first of them being number `index`. No action starts once
the delivery was cancelled, or after one has failed. -/
def runActions {σ M : Type} (definition message : String) (m : M) :
    Nat → List (Action σ M) → Script σ M EngineError Unit
  | _, [] => pure ()
  | index, action :: rest => do
    Script.checkLive
    (action m).mapError (EngineError.ofAction definition message index)
    runActions definition message m (index + 1) rest

namespace Blueprint

variable {σ M : Type} {S : StateSet}

/-- The names of the observed message types, sorted. -/
def observedMessages (b : Blueprint σ M S) : List String :=
  sortedNames (b.selectors.keys.map MessageType.name)

/-- Whether a message type starts instances. -/
def handlesStart (b : Blueprint σ M S) (trigger : MessageType) : Bool := b.starts.contains trigger

/-- Whether a message type has a transition rule in a state. -/
def handlesTransfer (b : Blueprint σ M S) (state : S.State) (trigger : MessageType) : Bool :=
  b.transfers.contains (state, trigger)

/-- The blueprint with the numbers of its rules and the message types it observes. -/
def describe (b : Blueprint σ M S) : String :=
  "Blueprint \x7b definition: " ++ quoted b.definition.name ++ s!", starts: {b.starts.size}" ++
    s!", transfers: {b.transfers.size}, observed: " ++ quotedList b.observedMessages ++ " \x7d"

variable [Message M]

/-- The correlation id of a message. It must not be blank, and is not trimmed. -/
def correlate (b : Blueprint σ M S) (m : M) : Except EngineError String :=
  match b.selectors.get? (Message.type m) with
  | none => .error (.missingCorrelation b.definition.name (Message.type m).name)
  | some select =>
    if isBlank (select m) then
      .error (.blankCorrelationId b.definition.name (Message.type m).name)
    else .ok (select m)

/-- The script of a message's startup rule. Without one nothing runs and there is no state. -/
def start (b : Blueprint σ M S) (m : M) : Script σ M EngineError (Option S.State) :=
  match b.starts.get? (Message.type m) with
  | none => pure none
  | some rule => do
    runActions b.definition.name (Message.type m).name m 0 rule.actions
    return some rule.target

/-- The script of a message's transition rule in a state. Without one nothing runs and the state
stays. -/
def transfer (b : Blueprint σ M S) (state : S.State) (m : M) : Script σ M EngineError S.State :=
  match b.transfers.get? (state, Message.type m) with
  | none => pure state
  | some rule => do
    runActions b.definition.name (Message.type m).name m 0 rule.actions
    return rule.target.getD state

end Blueprint

namespace Definition

variable {σ M : Type}

/-- Compiles the definition and logs it. -/
def compileLogged (d : Definition σ M) : Run σ M (Blueprint σ M d.states) :=
  match d.compile with
  | .error e => throw (.build e)
  | .ok b => do
    Delivery.report .debug .blueprint
      (s!"Compiled blueprint for {b.definition.name}: {b.starts.size} startup rules, " ++
        s!"{b.transfers.size} transition rules, {b.selectors.size} selectors")
    return b

/-- Compiling in a delivery fails with the build error, or gives the blueprint and logs the size of
its tables. -/
theorem compileLogged_apply (d : Definition σ M) (s : Delivery σ M) :
    d.compileLogged s =
      match d.compile with
      | .error e => .error (.build e) s
      | .ok b =>
        .ok b (s.logged .debug .blueprint
          (s!"Compiled blueprint for {b.definition.name}: {b.starts.size} startup rules, " ++
            s!"{b.transfers.size} transition rules, {b.selectors.size} selectors")) := by
  unfold Definition.compileLogged
  cases d.compile <;> rfl

end Definition

namespace Registry

variable {σ M : Type}

/-- The blueprint kept under a key. If there is none, `factory` builds one, which is then kept
unless the factory itself has led to another one for the key. -/
def getOrBuild (key : BlueprintKey) (S : StateSet) (factory : Run σ M (Blueprint σ M S)) :
    Run σ M (Blueprint σ M S) := do
  match (← get).registry.lookup key with
  | some cached => Run.ofExcept (expect key S cached)
  | none =>
    let built ← factory
    let (cached, registry) := (← get).registry.insertIfAbsent key built
    modify fun d => { d with registry }
    Delivery.report .debug .registry
      s!"Cached blueprint for {key.definition.name} triggered by {key.trigger.name}"
    Run.ofExcept (expect key S cached)

/-- A blueprint that is cached is handed out as it is. Otherwise the factory runs, and what it built
is kept unless the key was taken in the meantime. -/
theorem getOrBuild_apply (key : BlueprintKey) (S : StateSet)
    (factory : Run σ M (Blueprint σ M S)) (s : Delivery σ M) :
    getOrBuild key S factory s =
      match s.registry.lookup key with
      | some cached => Run.ofExcept (expect key S cached) s
      | none =>
        match factory s with
        | .error e s => .error e s
        | .ok built s =>
          let kept := s.registry.insertIfAbsent key built
          Run.ofExcept (expect key S kept.1)
            ({ s with registry := kept.2 }.logged .debug .registry
              s!"Cached blueprint for {key.definition.name} triggered by {key.trigger.name}") := by
  show (match s.registry.lookup key with
    | some cached => Run.ofExcept (expect key S cached)
    | none => _ : Run σ M (Blueprint σ M S)) s = _
  cases s.registry.lookup key with
  | some cached => rfl
  | none =>
    show EStateM.bind factory _ s = _
    unfold EStateM.bind
    cases factory s <;> rfl

/-- The blueprint of a definition for a message type, compiled on first use. -/
def blueprint (d : Definition σ M) (trigger : MessageType) : Run σ M (Blueprint σ M d.states) :=
  getOrBuild ⟨d.id, trigger⟩ d.states d.compileLogged

end Registry

end Saga
