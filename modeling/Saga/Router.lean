import Saga.Dispatch

/-!
# Forwarding

A router knows the definitions of an application by their identities, so that an action can have
another definition handle a message. Each forwarded message is a delivery of its own, with a session
and a cancellation flag of its own, on the same engine. Forwarding may nest as deeply as the given
number says.
-/

namespace Saga

/-- The definitions of an application and what their deliveries are given. -/
structure Router (σ M : Type) where
  definitions : List (Definition σ M) := []
  options : DispatchOptions := {}
  /-- The application's own services. -/
  application : List String := []

namespace Router

variable {σ M : Type} [Message M]

/-- Has a definition handle a message, which may be forwarded `depth` times more. -/
def forward (r : Router σ M) : Nat → DefinitionId → M → Run σ M String
  | 0, id, _ => throw (.transport s!"messages to {id.name} are forwarded too deeply")
  | depth + 1, id, m =>
    match r.definitions.find? fun d => d.id = id with
    | none => throw (.transport s!"{id.name} is no known definition")
    | some d => Delivery.isolated (d.handle r.options ⟨.ofSession r.application, r.forward depth⟩ m)

/-- How deeply the deliveries of a router may forward messages. -/
def depth : Nat := 65536

/-- What a delivery offers: the services of its session, those of the application, and the other
definitions. -/
def scope (r : Router σ M) : Scope σ M := ⟨.ofSession r.application, r.forward depth⟩

end Router

end Saga
