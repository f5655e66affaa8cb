import Saga.Store

/-!
# Sessions

A session stages the writes and messages of one delivery and hands them to the store in one
commit. It reads its own staged writes before the committed rows. After a successful commit it is
closed: it holds nothing and takes nothing. A refused commit leaves it as it was.
-/

namespace Saga

/-- What one delivery has staged. -/
structure Session where
  writes : List StagedWrite := []
  messages : List Envelope := []
  committed : Bool := false
  deriving DecidableEq

/-- Fails once the work has been cancelled. -/
def checkLive (cancelled : Bool) : Except EngineError Unit :=
  if cancelled then .error .cancelled else .ok ()

namespace Session

/-- Fails once the session has committed. -/
def checkOpen (s : Session) : Except EngineError Unit :=
  if s.committed then .error .alreadyCommitted else .ok ()

/-- The last staged record for a key. -/
def staged? (s : Session) (key : InstanceKey) : Option InstanceRecord :=
  (s.writes.reverse.map StagedWrite.record).find? fun r => r.key = key

/-- The row under a key as this session sees it: as staged last, or else as committed. -/
def read (s : Session) (store : Store) (key : InstanceKey) : Option InstanceRecord :=
  match s.staged? key with
  | some record => some record
  | none => (store.get? key).map StoredInstance.record

/-- Looks up the row under a key. -/
def find (s : Session) (store : Store) (cancelled : Bool) (key : InstanceKey) :
    Except EngineError (Option InstanceRecord) := do
  checkLive cancelled
  return s.read store key

/-- Stages a write. -/
def stage (s : Session) (write : StagedWrite) : Except EngineError Session := do
  s.checkOpen
  return { s with writes := s.writes ++ [write] }

/-- Stages a message. -/
def enqueue (s : Session) (cancelled : Bool) (message : Envelope) : Except EngineError Session := do
  checkLive cancelled
  s.checkOpen
  return { s with messages := s.messages ++ [message] }

/-- The session after a successful commit. -/
def closed : Session := { committed := true }

/-- Hands everything staged to the store. -/
def commit (s : Session) (store : Store) (cancelled : Bool) (now : Timestamp) :
    Except EngineError (Session × Store) := do
  checkLive cancelled
  s.checkOpen
  match store.commit now s.writes s.messages with
  | .ok store => return (closed, store)
  | .error e => throw e.toEngine

/-- An open session, and only an open one, takes a write, at the end of those it has staged. -/
theorem stage_eq_ok_iff {s after : Session} {write : StagedWrite} :
    s.stage write = .ok after ↔
      s.committed = false ∧ after = { s with writes := s.writes ++ [write] } := by
  cases h : s.committed <;>
    simp [stage, checkOpen, h, bind, Except.bind, pure, Except.pure, eq_comm]

/-- A session takes a message when it is open and the delivery is not cancelled, at the end of those
it holds. -/
theorem enqueue_eq_ok_iff {s after : Session} {cancelled : Bool} {message : Envelope} :
    s.enqueue cancelled message = .ok after ↔
      cancelled = false ∧ s.committed = false ∧
        after = { s with messages := s.messages ++ [message] } := by
  cases cancelled <;> cases h : s.committed <;>
    simp [enqueue, checkLive, checkOpen, h, bind, Except.bind, pure, Except.pure, eq_comm]

/-- A commit succeeds when the session is live and open and the store takes the batch. -/
theorem commit_eq_ok_iff {s after : Session} {store stored : Store} {cancelled : Bool}
    {now : Timestamp} :
    s.commit store cancelled now = .ok (after, stored) ↔
      cancelled = false ∧ s.committed = false ∧ after = closed ∧
        store.commit now s.writes s.messages = .ok stored := by
  cases cancelled <;> cases h : s.committed <;> cases hc : store.commit now s.writes s.messages <;>
    simp [commit, checkLive, checkOpen, h, hc, bind, Except.bind, pure, Except.pure, throw,
      throwThe, MonadExceptOf.throw, eq_comm]

end Session

end Saga
