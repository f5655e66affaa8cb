import Saga.Keyed
import Saga.Session

/-!
# Cancellation

Tokens are handles on a shared signal: the copies of a token form a family with it, and cancelling
one of them cancels all, for good. A waiter belongs to a family. When it gets its turn it registers
and only then looks at the signal: it is finished if the family is cancelled, and else it stays
registered until it is woken, whatever the signal says. A cancellation wakes the waiters of the
family that are registered at the time.

A `Board` holds the families, the tokens by name and the waiters by name.
-/

namespace Saga

/-- How far a waiter has come. -/
inductive WaiterStage where
  /-- Never polled. -/
  | idle
  /-- To be woken by the next cancellation. -/
  | registered
  /-- Woken, and not polled since. -/
  | notified
  /-- The wait is over. -/
  | finished
  deriving DecidableEq, Repr

/-- Someone who waits for the cancellation of a family. -/
structure Waiter where
  family : Nat
  stage : WaiterStage := .idle
  /-- How often the waiter was woken. -/
  wakes : Nat := 0
  deriving DecidableEq, Repr

/-- Tokens and waiters. The families are numbered in the order in which they came up. -/
structure Board (τ ω : Type) where
  /-- Whether each family was cancelled. -/
  families : List Bool := []
  tokens : Keyed τ Nat := Keyed.empty
  waiters : Keyed ω Waiter := Keyed.empty

namespace Board

variable {τ ω : Type} [DecidableEq τ] [DecidableEq ω]

/-- Whether a family was cancelled. -/
def familyCancelled (b : Board τ ω) (family : Nat) : Bool := b.families.getD family false

/-- Makes a token with a family of its own. -/
def create (b : Board τ ω) (token : τ) : Board τ ω :=
  { b with families := b.families ++ [false], tokens := b.tokens.insert token b.families.length }

/-- Makes `copy` another token of the family of `token`. -/
def clone (b : Board τ ω) (token copy : τ) : Board τ ω :=
  match b.tokens.get? token with
  | none => b
  | some family => { b with tokens := b.tokens.insert copy family }

/-- Whether a token reports cancellation. -/
def isCancelled (b : Board τ ω) (token : τ) : Bool :=
  match b.tokens.get? token with
  | none => false
  | some family => b.familyCancelled family

/-- Fails once the token reports cancellation. -/
def check (b : Board τ ω) (token : τ) : Except EngineError Unit := checkLive (b.isCancelled token)

/-- What a cancellation of a family does to a waiter: a registered one of the family is woken. -/
def notifyWaiter (family : Nat) (w : Waiter) : Waiter :=
  if w.family = family && w.stage = .registered then
    { w with stage := .notified, wakes := w.wakes + 1 }
  else w

/-- Cancels the family of a token. -/
def cancel (b : Board τ ω) (token : τ) : Board τ ω :=
  match b.tokens.get? token with
  | none => b
  | some family =>
    { b with
      families := b.families.set family true
      waiters := b.waiters.mapValues (notifyWaiter family) }

/-- Makes a waiter for the family of a token. -/
def wait (b : Board τ ω) (token : τ) (waiter : ω) : Board τ ω :=
  match b.tokens.get? token with
  | none => b
  | some family => { b with waiters := b.waiters.insert waiter { family } }

/-- A turn of a waiter: it registers, and then looks at the signal of its family. -/
def takeTurn (cancelled : Bool) (w : Waiter) : Waiter :=
  let w := { w with stage := .registered }
  if cancelled then { w with stage := .finished } else w

/-- What polling does to a waiter whose family is or is not cancelled. One that is registered has no
turn before it is woken. -/
def pollWaiter (cancelled : Bool) (w : Waiter) : Waiter :=
  match w.stage with
  | .idle | .notified => takeTurn cancelled w
  | .registered | .finished => w

/-- Polls a waiter. The answer is whether the wait is over. -/
def poll (b : Board τ ω) (waiter : ω) : Bool × Board τ ω :=
  match b.waiters.get? waiter with
  | none => (false, b)
  | some w =>
    let w := pollWaiter (b.familyCancelled w.family) w
    (w.stage = .finished, { b with waiters := b.waiters.insert waiter w })

end Board

end Saga
