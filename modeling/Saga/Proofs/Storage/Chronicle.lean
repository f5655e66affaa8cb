import Mathlib.Data.List.Induction
import Mathlib.Logic.Function.Basic
import Mathlib.Tactic.Lemma
import Saga.Session

/-!
# Chronicles of a store

A store is used by any number of sessions, each with its own writes and messages, and every call on
one of them is a step of its own: what a session stages nobody else sees, and a batch reaches the
store as a whole. A `Chronicle` is a store with its sessions and everything that was called on them
so far, each call with its reply. What a history says is read off the replies alone: the messages
that a session accepted, the sessions that committed, the messages that were handed out.

`Chronicle.run` takes any list of calls, so a statement about all lists is one about all
interleavings, at every point.
-/

namespace Saga

/-- A call on a session of a store, or on the store. Where a call looks at a cancellation token, it
says whether that token was cancelled. -/
inductive Call (ι : Type) where
  | find (session : ι) (cancelled : Bool) (key : InstanceKey)
  /-- Stages the adding or the update of a row. -/
  | stage (session : ι) (write : StagedWrite)
  /-- Sends a command or publishes a notification. -/
  | post (session : ι) (cancelled : Bool) (message : Envelope)
  | commit (session : ι) (cancelled : Bool) (now : Timestamp)
  | drain
  | restore (rows : List StoredInstance)

/-- What a call comes to. -/
inductive Reply where
  | done
  | failed (cause : EngineError)
  | found (record : Option InstanceRecord)
  | drained (messages : List Envelope)

/-- A store and the sessions that were opened on it. -/
structure Storage (ι : Type) where
  store : Store
  sessions : ι → Session

namespace Storage

variable {ι : Type} [DecidableEq ι]

/-- The storage with another session in the place of `i`. -/
def withSession (w : Storage ι) (i : ι) (session : Session) : Storage ι :=
  { w with sessions := Function.update w.sessions i session }

/-- Makes a call. A call that fails changes nothing. -/
def perform (w : Storage ι) : Call ι → Reply × Storage ι
  | .find i cancelled key =>
    match (w.sessions i).find w.store cancelled key with
    | .ok record => (.found record, w)
    | .error e => (.failed e, w)
  | .stage i write =>
    match (w.sessions i).stage write with
    | .ok session => (.done, w.withSession i session)
    | .error e => (.failed e, w)
  | .post i cancelled message =>
    match (w.sessions i).enqueue cancelled message with
    | .ok session => (.done, w.withSession i session)
    | .error e => (.failed e, w)
  | .commit i cancelled now =>
    match (w.sessions i).commit w.store cancelled now with
    | .ok (session, store) => (.done, { w.withSession i session with store })
    | .error e => (.failed e, w)
  | .drain => (.drained w.store.drain.1, { w with store := w.store.drain.2 })
  | .restore rows => (.done, { w with store := w.store.restore rows })

end Storage

/-- The calls so far with their replies, the oldest first. -/
abbrev History (ι : Type) := List (Call ι × Reply)

namespace History

variable {ι : Type} [DecidableEq ι]

/-- The message that a session accepted by a call, if it did. -/
def acceptedBy (i : ι) : Call ι × Reply → List Envelope
  | (.post j _ message, .done) => if j = i then [message] else []
  | _ => []

/-- The session that a call committed, if it did. -/
def committedBy : Call ι × Reply → List ι
  | (.commit i _ _, .done) => [i]
  | _ => []

/-- The messages that a call handed out. -/
def drainedBy : Call ι × Reply → List Envelope
  | (.drain, .drained messages) => messages
  | _ => []

/-- The messages that a session accepted, in that order. -/
def accepted (h : History ι) (i : ι) : List Envelope := h.flatMap (acceptedBy i)

/-- The sessions whose commits succeeded, in that order. -/
def committers (h : History ι) : List ι := h.flatMap committedBy

/-- The messages that the store handed out, in that order. -/
def drained (h : History ι) : List Envelope := h.flatMap drainedBy

/-- The messages that were accepted in two parts of a history are those of each part. -/
@[simp] lemma accepted_append (h k : History ι) (i : ι) :
    (h ++ k : History ι).accepted i = h.accepted i ++ k.accepted i :=
  List.flatMap_append

omit [DecidableEq ι] in
/-- The sessions that committed in two parts of a history are those of each part. -/
@[simp] lemma committers_append (h k : History ι) :
    (h ++ k : History ι).committers = h.committers ++ k.committers :=
  List.flatMap_append

end History

/-- A store with its sessions and their history. -/
structure Chronicle (ι : Type) where
  storage : Storage ι
  past : History ι := []

namespace Chronicle

variable {ι : Type} [DecidableEq ι]

/-- A store on which every session is fresh. -/
def opened (store : Store) : Chronicle ι := { storage := ⟨store, fun _ => {}⟩ }

/-- Makes a call and notes its reply. -/
def step (c : Chronicle ι) (call : Call ι) : Chronicle ι where
  storage := (c.storage.perform call).2
  past := c.past ++ [(call, (c.storage.perform call).1)]

/-- Makes calls one after the other. -/
def run (c : Chronicle ι) (calls : List (Call ι)) : Chronicle ι := calls.foldl step c

/-- What holds of a chronicle and is kept by the calls of a run holds after it. -/
lemma run_induction_of_mem {P : Chronicle ι → Prop} {c : Chronicle ι} {calls : List (Call ι)}
    (hc : P c) (hstep : ∀ c, ∀ call ∈ calls, P c → P (c.step call)) : P (c.run calls) := by
  induction calls generalizing c with
  | nil => exact hc
  | cons call rest ih =>
    apply ih (hstep c call List.mem_cons_self hc)
    intro c' call' hmem
    exact hstep c' call' (List.mem_cons_of_mem call hmem)

/-- What holds of a chronicle and is kept by every call holds after every run. -/
lemma run_induction {P : Chronicle ι → Prop} {c : Chronicle ι} (hc : P c)
    (hstep : ∀ c call, P c → P (c.step call)) (calls : List (Call ι)) : P (c.run calls) :=
  run_induction_of_mem hc fun c call _ => hstep c call

/-- A call at the end of a run is made after all others. -/
lemma run_concat (c : Chronicle ι) (calls : List (Call ι)) (call : Call ι) :
    c.run (calls ++ [call]) = (c.run calls).step call :=
  List.foldl_append

/-- What stands in the history of a run is the answer to a call of the run, made after the calls
before it. -/
lemma exists_run_of_past {store : Store} {calls : List (Call ι)} {before after : History ι}
    {call : Call ι} {reply : Reply}
    (h : ((opened store).run calls).past = before ++ (call, reply) :: after) :
    ∃ earlier, ((opened store).run earlier).past = before ∧
      reply = (((opened store).run earlier).storage.perform call).1 := by
  induction calls using List.reverseRecOn generalizing after with
  | nil => simp [run, opened] at h
  | append_singleton calls last ih =>
    rw [run_concat] at h
    -- The entry is that of the last call, or it was there before that call.
    rcases List.eq_nil_or_concat after with rfl | ⟨middle, _, rfl⟩
    · obtain ⟨hbefore, hlast⟩ := List.append_inj' h rfl
      cases hlast
      exact ⟨calls, hbefore, rfl⟩
    · rw [List.concat_eq_append, ← List.cons_append, ← List.append_assoc] at h
      exact ih (List.append_inj' h rfl).1

end Chronicle

end Saga
