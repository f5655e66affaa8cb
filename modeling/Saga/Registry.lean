import Saga.Builder

/-!
# The blueprint registry

Compiled blueprints are kept under the definition and the message type that first asked for them.
An entry is never replaced: of several blueprints built for one key the first one inserted counts.
Blueprints of all state sets share the registry, so whoever takes one out says which set it expects.
-/

namespace Saga

/-- What a blueprint is kept under: the definition and the message type that triggered the look-
up. -/
structure BlueprintKey where
  definition : DefinitionId
  trigger : MessageType
  deriving DecidableEq, Repr

/-- A blueprint in the registry. -/
structure CachedBlueprint (σ M : Type) where
  /-- How many blueprints the registry held before this one. -/
  serial : Nat
  states : StateSet
  blueprint : Blueprint σ M states

/-- The blueprint, if it is one over the states `S`. -/
def CachedBlueprint.as? {σ M : Type} (c : CachedBlueprint σ M) (S : StateSet) :
    Option (Blueprint σ M S) :=
  if h : c.states = S then some (h ▸ c.blueprint) else none

/-- The compiled blueprints. -/
structure Registry (σ M : Type) where
  entries : Keyed BlueprintKey (CachedBlueprint σ M) := Keyed.empty

namespace Registry

variable {σ M : Type}

/-- The blueprint kept under a key. -/
def lookup (r : Registry σ M) (key : BlueprintKey) : Option (CachedBlueprint σ M) :=
  r.entries.get? key

/-- Whether a blueprint is kept under a key. -/
def contains (r : Registry σ M) (key : BlueprintKey) : Bool := r.entries.contains key

/-- The number of blueprints. -/
def size (r : Registry σ M) : Nat := r.entries.size

/-- Keeps a blueprint under a key, unless there is one. The answer is the one that is kept. -/
def insertIfAbsent (r : Registry σ M) (key : BlueprintKey) {S : StateSet}
    (blueprint : Blueprint σ M S) : CachedBlueprint σ M × Registry σ M :=
  match r.lookup key with
  | some cached => (cached, r)
  | none =>
    let cached := ⟨r.size, S, blueprint⟩
    (cached, { r with entries := r.entries.insert key cached })

/-- Takes a kept blueprint for one over the states `S`. -/
def expect (key : BlueprintKey) (S : StateSet) (cached : CachedBlueprint σ M) :
    Except EngineError (Blueprint σ M S) :=
  match cached.as? S with
  | some blueprint => .ok blueprint
  | none => .error (.blueprintTypeMismatch key.definition.name)

end Registry

end Saga
