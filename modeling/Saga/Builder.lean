import Saga.Keyed
import Saga.Script
import Saga.StateSet

/-!
# Builders

A builder collects the rules of one definition: what starts an instance, what moves an instance on
in each state, and how each message type finds its instance. A call that would register something a
second time is rejected and leaves the builder as it was. `build` freezes the rules, provided that
the message types which rules observe are exactly those with a selector.
-/

namespace Saga

/-- A startup rule: creates an instance in a fixed state. -/
structure StartRule (σ M : Type) (S : StateSet) where
  target : S.State
  actions : List (Action σ M) := []

/-- A transition rule: runs actions and moves to a state, or stays where it was. -/
structure TransferRule (σ M : Type) (S : StateSet) where
  target : Option S.State := none
  actions : List (Action σ M) := []

/-- A part of a transition clause. -/
inductive RuleStep (σ M : Type) (S : StateSet) where
  | action (run : Action σ M)
  | moveTo (target : S.State)

/-- A clause of a definition. -/
inductive Rule (σ M : Type) (S : StateSet) where
  /-- The message starts an instance in the state `initial`. -/
  | start (trigger : MessageType) (initial : S.State) (actions : List (Action σ M))
  /-- The message moves an instance on that is in the state `source`. -/
  | on (source : S.State) (trigger : MessageType) (steps : List (RuleStep σ M S))
  /-- The message belongs to the instance that `select` names. -/
  | correlate (message : MessageType) (select : M → String)

/-- The rules of a definition as far as they are registered. -/
structure Builder (σ M : Type) (S : StateSet) where
  definition : DefinitionId
  starts : Keyed MessageType (StartRule σ M S) := Keyed.empty
  /-- Transition rules by source state and message type. -/
  transfers : Keyed (S.State × MessageType) (TransferRule σ M S) := Keyed.empty
  selectors : Keyed MessageType (M → String) := Keyed.empty
  /-- The message types of the registered startup and transition rules. -/
  observed : List MessageType := []

/-- A call on a builder. -/
abbrev Build (σ M : Type) (S : StateSet) := EStateM BuildError (Builder σ M S)

/-- Frozen rules, read-only from here on. -/
structure Blueprint (σ M : Type) (S : StateSet) where
  definition : DefinitionId
  starts : Keyed MessageType (StartRule σ M S)
  transfers : Keyed (S.State × MessageType) (TransferRule σ M S)
  selectors : Keyed MessageType (M → String)

/-- Texts in ascending order. -/
def sortedNames (names : List String) : List String := names.mergeSort fun a b => a ≤ b

namespace Builder

variable {σ M : Type} {S : StateSet}

/-- Declares that a message starts an instance. -/
def startWhen (trigger : MessageType) (initial : S.State) : Build σ M S Unit := do
  let b ← get
  if b.starts.contains trigger then
    throw (.duplicateStart b.definition.name trigger.name)
  set { b with
    starts := b.starts.insert trigger { target := initial }
    observed := b.observed.insert trigger }

/-- Attaches an action to a startup rule. -/
def executeOnStart (trigger : MessageType) (run : Action σ M) : Build σ M S Unit :=
  modify fun b => { b with
    starts := b.starts.modify trigger fun r => { r with actions := r.actions ++ [run] } }

/-- Declares that a message moves instances on that are in the state `source`. -/
def onWhen (source : S.State) (trigger : MessageType) : Build σ M S Unit := do
  let b ← get
  if b.transfers.contains (source, trigger) then
    throw (.duplicateTransfer b.definition.name source.name trigger.name)
  set { b with
    transfers := b.transfers.insert (source, trigger) {}
    observed := b.observed.insert trigger }

/-- Attaches an action to a transition rule. -/
def execute (source : S.State) (trigger : MessageType) (run : Action σ M) : Build σ M S Unit :=
  modify fun b => { b with
    transfers := b.transfers.modify (source, trigger) fun r =>
      { r with actions := r.actions ++ [run] } }

/-- Sets the state that a transition rule moves to. -/
def transitionTo (source : S.State) (trigger : MessageType) (target : S.State) :
    Build σ M S Unit := do
  let b ← get
  if (b.transfers.get? (source, trigger)).any fun r => r.target.isSome then
    throw (.targetAlreadySet b.definition.name source.name trigger.name)
  set { b with
    transfers := b.transfers.modify (source, trigger) fun r => { r with target := some target } }

/-- Registers how a message finds its instance. -/
def correlate (message : MessageType) (select : M → String) : Build σ M S Unit := do
  let b ← get
  if b.selectors.contains message then
    throw (.duplicateCorrelation b.definition.name message.name)
  set { b with selectors := b.selectors.insert message select }

/-- Takes one part of a transition clause. -/
def takeStep (source : S.State) (trigger : MessageType) : RuleStep σ M S → Build σ M S Unit
  | .action run => execute source trigger run
  | .moveTo target => transitionTo source trigger target

/-- Takes a clause, call by call. What came before a rejected call stays. -/
def take : Rule σ M S → Build σ M S Unit
  | .start trigger initial actions => do
    startWhen trigger initial
    actions.forM (executeOnStart trigger)
  | .on source trigger steps => do
    onWhen source trigger
    steps.forM (takeStep source trigger)
  | .correlate message select => correlate message select

/-- The observed message types without a selector. -/
def missing (b : Builder σ M S) : List MessageType :=
  b.observed.filter fun m => !b.selectors.contains m

/-- The message types with a selector that no rule observes. -/
def extra (b : Builder σ M S) : List MessageType :=
  b.selectors.keys.filter fun m => !b.observed.contains m

/-- Freezes the rules. -/
def build (b : Builder σ M S) : Except BuildError (Blueprint σ M S) :=
  if b.missing.isEmpty && b.extra.isEmpty then
    .ok ⟨b.definition, b.starts, b.transfers, b.selectors⟩
  else
    .error (.correlationMismatch b.definition.name
      (sortedNames (b.missing.map MessageType.name)) (sortedNames (b.extra.map MessageType.name)))

end Builder

/-- A workflow definition: its identity, its states and its rules. -/
structure Definition (σ M : Type) where
  id : DefinitionId
  states : StateSet
  rules : List (Rule σ M states)

/-- Takes the rules of a definition in order, up to the first rejected call, and freezes them. -/
def Definition.compile {σ M : Type} (d : Definition σ M) :
    Except BuildError (Blueprint σ M d.states) :=
  match (d.rules.forM Builder.take).run { definition := d.id } with
  | .ok _ b => b.build
  | .error e _ => .error e

end Saga
