import Saga.Router
import Saga.Proofs.Script.Laws

/-!
# The session as the services of a delivery

What a script asks of the repository, the unit of work, the sender and the publisher is answered by
the session of the delivery, provided that these services are the session's own
(`Services.OfSession`). Some may be missing; a request for a missing one fails and changes nothing.
Where none is missing (`Services.Complete`) every request is exactly the session's own operation.
-/

namespace Saga

variable {σ M : Type}

/-- The services of the session, as far as they are registered, are the session itself. -/
structure Services.OfSession (s : Services (ServiceName.Provider σ M)) : Prop where
  repository : ∀ p, s.get? .repository = some p → p = (Repository.ofSession : Repository σ M)
  unitOfWork : ∀ p, s.get? .unitOfWork = some p → p = (Delivery.commit : Run σ M Unit)
  commandSender : ∀ p, s.get? .commandSender = some p →
    p = (Delivery.enqueue : Envelope → Run σ M Unit)
  notificationPublisher : ∀ p, s.get? .notificationPublisher = some p →
    p = (Delivery.enqueue : Envelope → Run σ M Unit)

/-- All services of the session are registered, and are the session itself. -/
structure Services.Complete (s : Services (ServiceName.Provider σ M)) : Prop where
  repository : s.get? .repository = some (Repository.ofSession : Repository σ M)
  unitOfWork : s.get? .unitOfWork = some (Delivery.commit : Run σ M Unit)
  commandSender : s.get? .commandSender = some (Delivery.enqueue : Envelope → Run σ M Unit)
  notificationPublisher :
    s.get? .notificationPublisher = some (Delivery.enqueue : Envelope → Run σ M Unit)

/-- Services that are complete are the session's own. -/
lemma Services.Complete.ofSession {s : Services (ServiceName.Provider σ M)} (h : s.Complete) :
    s.OfSession where
  repository _ hp := Option.some.inj (hp.symm.trans h.repository)
  unitOfWork _ hp := Option.some.inj (hp.symm.trans h.unitOfWork)
  commandSender _ hp := Option.some.inj (hp.symm.trans h.commandSender)
  notificationPublisher _ hp := Option.some.inj (hp.symm.trans h.notificationPublisher)

/-- The services that a session registers are complete, whatever the application registered. -/
lemma Services.complete_ofSession (application : List String) :
    (Services.ofSession application : Services (ServiceName.Provider σ M)).Complete where
  repository := by
    rw [Services.ofSession, Services.get?_insert_of_ne _ (by decide),
      Services.get?_insert_of_ne _ (by decide), Services.get?_insert_of_ne _ (by decide),
      Services.get?_insert_self]
  unitOfWork := by
    rw [Services.ofSession, Services.get?_insert_of_ne _ (by decide),
      Services.get?_insert_of_ne _ (by decide), Services.get?_insert_self]
  commandSender := by
    rw [Services.ofSession, Services.get?_insert_of_ne _ (by decide), Services.get?_insert_self]
  notificationPublisher := by rw [Services.ofSession, Services.get?_insert_self]

/-- A session offers the services of the application beside its own. -/
lemma Services.contains_application {application : List String} {name : String}
    (h : name ∈ application) :
    (Services.ofSession application : Services (ServiceName.Provider σ M)).contains
      (.application name) = true := by
  have hfold : ∀ base : Services (ServiceName.Provider σ M),
      name ∈ application ∨ base.contains (.application name) = true →
        (application.foldl (fun s name => s.insert (.application name) ()) base).contains
          (.application name) = true := by
    clear h
    induction application with
    | nil =>
      intro base h
      exact h.resolve_left nofun
    | cons first rest ih =>
      intro base h
      refine ih _ ?_
      by_cases hfirst : first = name
      · subst hfirst
        exact .inr (by rw [Services.contains, Services.get?_insert_self]; rfl)
      · refine h.imp (fun hmem => (List.mem_cons.1 hmem).resolve_left (Ne.symm hfirst)) ?_
        intro hbase
        rwa [Services.contains, Services.get?_insert_of_ne _ (by simpa using hfirst)]
  simp only [Services.contains, Services.ofSession, ne_eq, reduceCtorEq, not_false_eq_true,
    Services.get?_insert_of_ne]
  exact hfold _ (.inl h)

namespace Router

variable [Message M]

/-- A router offers all services. -/
lemma services_complete (r : Router σ M) : r.scope.services.Complete :=
  Services.complete_ofSession r.application

/-- The services of a router are those of the session. -/
lemma services_ofSession (r : Router σ M) : r.scope.services.OfSession :=
  r.services_complete.ofSession

end Router

namespace Scope

variable {scope : Scope σ M}

/-- Resolving a service changes nothing. -/
lemma require_apply (name : ServiceName) (d : Delivery σ M) :
    scope.require name d =
      match scope.services.get? name with
      | some p => .ok p d
      | none => .error (.serviceNotRegistered name.label) d := by
  unfold Scope.require Services.require
  cases scope.services.get? name <;> rfl

/-- What needs a service that is registered, if at all, as `p` is done with `p`, or fails at once.
-/
lemma bind_require {α : Type} {name : ServiceName} {p : name.Provider σ M}
    (h : ∀ q, scope.services.get? name = some q → q = p) (f : name.Provider σ M → Run σ M α)
    (d : Delivery σ M) :
    (∃ e, (scope.require name >>= f) d = .error e d) ∨ (scope.require name >>= f) d = f p d := by
  show (∃ e, EStateM.bind (scope.require name) f d = .error e d) ∨
    EStateM.bind (scope.require name) f d = f p d
  rw [EStateM.bind, require_apply]
  cases hq : scope.services.get? name with
  | none => exact .inl ⟨_, rfl⟩
  | some q =>
    right
    rw [h q hq]

/-- What needs a service that is registered as `p` is done with `p`. -/
lemma bind_require_of_some {α : Type} {name : ServiceName} {p : name.Provider σ M}
    (h : scope.services.get? name = some p) (f : name.Provider σ M → Run σ M α)
    (d : Delivery σ M) : (scope.require name >>= f) d = f p d := by
  show EStateM.bind (scope.require name) f d = f p d
  rw [EStateM.bind, require_apply, h]

/-- A request for a service changes nothing. -/
lemma perform_require (name : ServiceName) (d : Delivery σ M) :
    scope.perform (.require name) d =
      match scope.services.get? name with
      | some _ => .ok () d
      | none => .error (.serviceNotRegistered name.label) d := by
  show EStateM.bind (scope.require name) _ d = _
  rw [EStateM.bind, require_apply]
  cases scope.services.get? name <;> rfl

namespace OfSession

variable (h : scope.services.OfSession)

include h

/-- A look-up is made by the session, or fails and does nothing. -/
lemma perform_find (key : InstanceKey) (d : Delivery σ M) :
    (∃ e, scope.perform (.find key) d = .error e d) ∨
      scope.perform (.find key) d = Delivery.find key d :=
  bind_require h.repository (fun p => p.find key) d

/-- The adding of a row is staged in the session, or fails and does nothing. -/
lemma perform_add (record : InstanceRecord) (d : Delivery σ M) :
    (∃ e, scope.perform (.add record) d = .error e d) ∨
      scope.perform (.add record) d = Delivery.stage (.add record) d :=
  bind_require h.repository (fun p => p.add record) d

/-- The update of a row is staged in the session, or fails and does nothing. -/
lemma perform_update (record : InstanceRecord) (d : Delivery σ M) :
    (∃ e, scope.perform (.update record) d = .error e d) ∨
      scope.perform (.update record) d = Delivery.stage (.update record) d :=
  bind_require h.repository (fun p => p.update record) d

/-- A command is posted in the session, or fails and does nothing. -/
lemma perform_send (command : Envelope) (d : Delivery σ M) :
    (∃ e, scope.perform (.send command) d = .error e d) ∨
      scope.perform (.send command) d = Delivery.enqueue command d :=
  bind_require h.commandSender (fun p => p command) d

/-- A notification is posted in the session, or fails and does nothing. -/
lemma perform_publish (notification : Envelope) (d : Delivery σ M) :
    (∃ e, scope.perform (.publish notification) d = .error e d) ∨
      scope.perform (.publish notification) d = Delivery.enqueue notification d :=
  bind_require h.notificationPublisher (fun p => p notification) d

/-- A commit is one of the session, or fails and does nothing. -/
lemma perform_commit (d : Delivery σ M) :
    (∃ e, scope.perform .commit d = .error e d) ∨ scope.perform .commit d = Delivery.commit d :=
  bind_require h.unitOfWork (fun p => p) d

end OfSession

end Scope

namespace Script

variable {scope : Scope σ M} {ε : Type} [FromEngine ε]

/-- A service that is required is there, or its lack is what the script fails with. -/
lemma run_require (name : ServiceName) (d : Delivery σ M) :
    (require name : Script σ M ε Unit).run scope d =
      match scope.services.get? name with
      | some _ => .ok () d
      | none => .error (FromEngine.ofEngine (.serviceNotRegistered name.label)) d := by
  unfold Script.require
  rw [run_ask, Scope.perform_require]
  cases scope.services.get? name <;> rfl

section OfSession

variable (h : scope.services.OfSession)

include h

/-- A look-up fails, or it gives what the session reads; it changes nothing either way. -/
lemma run_find (key : InstanceKey) (d : Delivery σ M) :
    (∃ e, (find key : Script σ M ε (Option InstanceRecord)).run scope d = .error e d) ∨
      d.cancelled = false ∧
        (find key : Script σ M ε (Option InstanceRecord)).run scope d =
          .ok (d.session.read d.store key) d := by
  unfold Script.find
  rw [run_ask]
  rcases Scope.OfSession.perform_find h key d with ⟨e, hfind⟩ | hfind
  · rw [hfind]
    exact .inl ⟨_, rfl⟩
  · rw [hfind, Delivery.find_apply]
    cases hlive : d.cancelled with
    | true => exact .inl ⟨_, rfl⟩
    | false => exact .inr ⟨rfl, rfl⟩

/-- A commit fails and changes nothing, or it is the session's. -/
lemma run_commit (d : Delivery σ M) :
    (∃ e, (commit : Script σ M ε Unit).run scope d = .error e d) ∨
      ∃ d', Delivery.commit d = .ok () d' ∧
        (commit : Script σ M ε Unit).run scope d = .ok () d' := by
  unfold Script.commit
  rw [run_ask]
  rcases Scope.OfSession.perform_commit h d with ⟨e, hcommit⟩ | hcommit
  · rw [hcommit]
    exact .inl ⟨_, rfl⟩
  · rw [hcommit, Delivery.commit_apply]
    cases d.session.commit d.store d.cancelled d.now with
    | error e => exact .inl ⟨_, rfl⟩
    | ok stored => exact .inr ⟨_, rfl, rfl⟩

end OfSession

/-- Stages a write. -/
def stage : StagedWrite → Script σ M ε Unit
  | .add record => Script.add record
  | .update record => Script.update record

/-- Stages a write for a result, unless the delivery was cancelled. -/
def staging {α : Type} (write : StagedWrite) (result : α) : Script σ M ε α :=
  checkLive.bind fun _ => (stage write).bind fun _ => done result

/-- A registered repository stages a write as the session does. -/
lemma run_stage
    (h : scope.services.get? .repository = some (Repository.ofSession : Repository σ M))
    (write : StagedWrite) (d : Delivery σ M) :
    (stage write : Script σ M ε Unit).run scope d =
      match Delivery.stage write d with
      | .ok u d' => .ok u d'
      | .error e d' => .error (FromEngine.ofEngine e) d' := by
  cases write with
  | add record =>
    have hperform : scope.perform (.add record) d = Delivery.stage (.add record) d :=
      Scope.bind_require_of_some h (fun p => p.add record) d
    show (ask (.add record)).run scope d = _
    rw [run_ask, hperform]
    cases Delivery.stage (.add record) d <;> rfl
  | update record =>
    have hperform : scope.perform (.update record) d = Delivery.stage (.update record) d :=
      Scope.bind_require_of_some h (fun p => p.update record) d
    show (ask (.update record)).run scope d = _
    rw [run_ask, hperform]
    cases Delivery.stage (.update record) d <;> rfl

/-- A write that was staged for a result leaves that result. -/
lemma run_staging_eq_ok {α : Type} {write : StagedWrite} {a a' : α} {d d' : Delivery σ M}
    (h : (staging write a : Script σ M ε α).run scope d = .ok a' d') : a' = a := by
  obtain ⟨_, d1, -, h⟩ := run_bind_eq_ok scope h
  obtain ⟨_, d2, -, h⟩ := run_bind_eq_ok scope h
  cases h
  rfl

section Complete

variable (h : scope.services.Complete)

include h

/-- A live delivery finds what its session reads. -/
lemma run_find_of_live (key : InstanceKey) (d : Delivery σ M) (hlive : d.cancelled = false) :
    (find key : Script σ M ε (Option InstanceRecord)).run scope d =
      .ok (d.session.read d.store key) d := by
  have hperform : scope.perform (.find key) d = Delivery.find key d :=
    Scope.bind_require_of_some h.repository (fun p => p.find key) d
  unfold Script.find
  rw [run_ask, hperform, Delivery.find_apply, hlive]
  rfl

/-- An open session takes every write. -/
lemma run_stage_of_open (write : StagedWrite) (d : Delivery σ M)
    (hopen : d.session.committed = false) :
    (stage write : Script σ M ε Unit).run scope d =
      .ok () { d with session := { d.session with writes := d.session.writes ++ [write] } } := by
  rw [run_stage h.repository, Delivery.stage_apply, Session.stage_eq_ok_iff.2 ⟨hopen, rfl⟩]

/-- What the store takes from a live and open session is committed. -/
lemma run_commit_of_ok {d : Delivery σ M} {store : Store} (hlive : d.cancelled = false)
    (hopen : d.session.committed = false)
    (hstore : d.store.commit d.now d.session.writes d.session.messages = .ok store) :
    ∃ log, (commit : Script σ M ε Unit).run scope d =
      .ok () { d with session := .closed, store, log } := by
  have hperform : scope.perform .commit d = Delivery.commit d :=
    Scope.bind_require_of_some h.unitOfWork (fun p => p) d
  unfold Script.commit
  rw [run_ask, hperform, Delivery.commit_apply,
    Session.commit_eq_ok_iff.2 ⟨hlive, hopen, rfl, hstore⟩]
  exact ⟨_, rfl⟩

end Complete

end Script

end Saga
