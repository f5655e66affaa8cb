import Saga.Proofs.Script.Effects

/-!
# How requests are refused

A request meets an error when a service is missing, when the delivery was cancelled, when its
session is closed, or when the store does not take the batch (`EngineError.Refusal`). So a script
that passes its errors on fails with one of these, and never with a cause that only a dispatch
itself finds, such as an ordinal that stands for no state (`Refusal.ne_unknownStateOrdinal`).
-/

namespace Saga

variable {σ M α : Type} {e : EngineError}

/-- The errors with which a delivery refuses a request. -/
inductive EngineError.Refusal : EngineError → Prop where
  | missing {service} : Refusal (.serviceNotRegistered service)
  | cancelled : Refusal .cancelled
  | alreadyCommitted : Refusal .alreadyCommitted
  | store {cause : StoreError} : Refusal cause.toEngine

/-- No refusal is about an ordinal. -/
lemma EngineError.Refusal.ne_unknownStateOrdinal (h : e.Refusal) (definition : String)
    (ordinal : Int32) : e ≠ .unknownStateOrdinal definition ordinal := by
  cases h with
  | @store cause => cases cause <;> exact nofun
  | _ => exact nofun

/-- Whether a request can meet an answer. To report never fails. -/
def Request.Meets : (r : Request M) → Except EngineError r.Answer → Prop
  | .report _, .error _ => False
  | _, _ => True

/-- Any request can be answered. -/
lemma Request.meets_ok (r : Request M) (answer : r.Answer) : r.Meets (.ok answer) := by
  cases r <;> trivial

/-- What checks for cancellation first fails by a refusal, or later. -/
lemma checkLive_bind_error {cancelled : Bool} {f : Unit → Except EngineError α}
    (h : (checkLive cancelled >>= f) = .error e) : e.Refusal ∨ f () = .error e := by
  cases cancelled with
  | true =>
    cases h
    exact .inl .cancelled
  | false => exact .inr h

namespace Session

variable {s : Session} {cancelled : Bool}

/-- What checks for an open session first fails by a refusal, or later. -/
lemma checkOpen_bind_error {f : Unit → Except EngineError α}
    (h : (s.checkOpen >>= f) = .error e) : e.Refusal ∨ f () = .error e := by
  unfold checkOpen at h
  cases hcommitted : s.committed with
  | true =>
    rw [hcommitted] at h
    cases h
    exact .inl .alreadyCommitted
  | false =>
    rw [hcommitted] at h
    exact .inr h

/-- A session looks up, or fails by a refusal. -/
lemma find_refusal {store : Store} {key : InstanceKey}
    (h : s.find store cancelled key = .error e) : e.Refusal := by
  rcases checkLive_bind_error h with hrefusal | hread
  · exact hrefusal
  · cases hread

/-- A session takes a write, or fails by a refusal. -/
lemma stage_refusal {write : StagedWrite} (h : s.stage write = .error e) : e.Refusal := by
  rcases checkOpen_bind_error h with hrefusal | hstaged
  · exact hrefusal
  · cases hstaged

/-- A session takes a message, or fails by a refusal. -/
lemma enqueue_refusal {message : Envelope} (h : s.enqueue cancelled message = .error e) :
    e.Refusal := by
  rcases checkLive_bind_error h with hrefusal | hopen
  · exact hrefusal
  · rcases checkOpen_bind_error hopen with hrefusal | hstaged
    · exact hrefusal
    · cases hstaged

/-- A session commits, or fails by a refusal. -/
lemma commit_refusal {store : Store} {now : Timestamp}
    (h : s.commit store cancelled now = .error e) : e.Refusal := by
  rcases checkLive_bind_error h with hrefusal | hopen
  · exact hrefusal
  · rcases checkOpen_bind_error hopen with hrefusal | hstored
    · exact hrefusal
    · split at hstored
      · cases hstored
      · cases hstored
        exact .store

end Session

namespace Delivery

variable {d d' : Delivery σ M}

/-- A delivery looks up, or fails by a refusal. -/
lemma find_refusal {key : InstanceKey} (h : Delivery.find key d = .error e d') : e.Refusal := by
  rw [find_apply] at h
  split at h
  · cases h
  · next hfind =>
    cases h
    exact Session.find_refusal hfind

/-- A delivery stages a write, or fails by a refusal. -/
lemma stage_refusal {write : StagedWrite} (h : Delivery.stage write d = .error e d') :
    e.Refusal := by
  rw [stage_apply] at h
  split at h
  · cases h
  · next hstage =>
    cases h
    exact Session.stage_refusal hstage

/-- A delivery posts a message, or fails by a refusal. -/
lemma enqueue_refusal {message : Envelope} (h : Delivery.enqueue message d = .error e d') :
    e.Refusal := by
  rw [enqueue_apply] at h
  split at h
  · cases h
  · next henqueue =>
    cases h
    exact Session.enqueue_refusal henqueue

/-- A delivery commits, or fails by a refusal. -/
lemma commit_refusal (h : Delivery.commit d = .error e d') : e.Refusal := by
  rw [commit_apply] at h
  split at h
  · cases h
  · next hcommit =>
    cases h
    exact Session.commit_refusal hcommit

end Delivery

namespace Scope

variable {scope : Scope σ M} {d d' : Delivery σ M}

/-- A request that fails in a scope is one that can fail. -/
lemma meets_of_error {r : Request M} (h : scope.perform r d = .error e d') :
    r.Meets (.error e) := by
  cases r with
  | report entry => cases h
  | _ => trivial

/-- What needs a service is refused because the service is missing, or because what is done with it
is. -/
lemma bind_require_refusal {name : ServiceName} {f : name.Provider σ M → Run σ M α}
    (hf : ∀ p, scope.services.get? name = some p → f p d = .error e d' → e.Refusal)
    (h : (scope.require name >>= f) d = .error e d') : e.Refusal := by
  change EStateM.bind (scope.require name) f d = _ at h
  rw [EStateM.bind, require_apply] at h
  cases hp : scope.services.get? name with
  | none =>
    rw [hp] at h
    cases h
    exact .missing
  | some p =>
    rw [hp] at h
    exact hf p hp h

/-- A request that forwards nothing meets no error but a refusal. -/
lemma perform_refusal (hown : scope.services.OfSession) {r : Request M} (hr : ¬ r.Forwards)
    (h : scope.perform r d = .error e d') : e.Refusal := by
  cases r with
  | find key =>
    refine bind_require_refusal ?_ h
    intro p hp hfail
    cases hown.repository p hp
    exact Delivery.find_refusal hfail
  | add record =>
    refine bind_require_refusal ?_ h
    intro p hp hfail
    cases hown.repository p hp
    exact Delivery.stage_refusal hfail
  | update record =>
    refine bind_require_refusal ?_ h
    intro p hp hfail
    cases hown.repository p hp
    exact Delivery.stage_refusal hfail
  | send command =>
    refine bind_require_refusal ?_ h
    intro p hp hfail
    cases hown.commandSender p hp
    exact Delivery.enqueue_refusal hfail
  | publish notification =>
    refine bind_require_refusal ?_ h
    intro p hp hfail
    cases hown.notificationPublisher p hp
    exact Delivery.enqueue_refusal hfail
  | commit =>
    refine bind_require_refusal ?_ h
    intro p hp hfail
    cases hown.unitOfWork p hp
    exact Delivery.commit_refusal hfail
  | cancel => cases h
  | isCancelled => cases h
  | require service =>
    refine bind_require_refusal ?_ h
    intro p _ hdone
    cases hdone
  | provides service => cases h
  | forward definition message => exact absurd trivial hr
  | report entry => cases h

end Scope

end Saga
