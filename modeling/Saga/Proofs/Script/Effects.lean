import Saga.Proofs.Script.Only

/-!
# What requests do

Where the services are those of the session, a request either meets an error and changes nothing, or
does one of a few things to its delivery (`Delivery.Does`, `Scope.perform_cases`). What a kind of
request leaves alone is then read off case by case.
-/

namespace Saga

variable {σ M : Type}

/-- Has another delivery do something. -/
def Request.Forwards : Request M → Prop
  | .forward _ _ => True
  | _ => False

/-- A request that stays inside forwards nothing. -/
lemma Request.StaysInside.not_forwards {r : Request M} (h : r.StaysInside) : ¬ r.Forwards := by
  cases r with
  | forward definition message => exact h.elim
  | _ => exact id

/-- What a request that is answered does to its delivery. -/
inductive Delivery.Does (s : Delivery σ M) : (r : Request M) → r.Answer → Delivery σ M → Prop where
  | find {key} : Does s (.find key) (s.session.read s.store key) s
  | add {record} : s.session.committed = false →
    Does s (.add record) ()
      { s with session := { s.session with writes := s.session.writes ++ [.add record] } }
  | update {record} : s.session.committed = false →
    Does s (.update record) ()
      { s with session := { s.session with writes := s.session.writes ++ [.update record] } }
  | send {message} : s.session.committed = false →
    Does s (.send message) ()
      { s with session := { s.session with messages := s.session.messages ++ [message] } }
  | publish {message} : s.session.committed = false →
    Does s (.publish message) ()
      { s with session := { s.session with messages := s.session.messages ++ [message] } }
  | commit {store log} : s.session.committed = false →
    s.store.commit s.now s.session.writes s.session.messages = .ok store →
    Does s .commit () { s with session := .closed, store, log }
  | cancel : Does s .cancel () { s with cancelled := true }
  | isCancelled : Does s .isCancelled s.cancelled s
  | require {service} : Does s (.require service) () s
  | provides {service answer} : Does s (.provides service) answer s
  | report {entry} : Does s (.report entry) () { s with log := s.log ++ [entry] }

namespace Delivery

variable {s : Delivery σ M}

/-- Staging a write fails and changes nothing, or the open session takes the write. -/
lemma stage_cases (write : StagedWrite) :
    (∃ e, Delivery.stage write s = .error e s) ∨
      s.session.committed = false ∧ Delivery.stage write s =
        .ok () { s with session := { s.session with writes := s.session.writes ++ [write] } } := by
  rw [Delivery.stage_apply]
  cases hstage : s.session.stage write with
  | error e => exact .inl ⟨e, rfl⟩
  | ok session =>
    obtain ⟨hopen, rfl⟩ := Session.stage_eq_ok_iff.1 hstage
    exact .inr ⟨hopen, rfl⟩

/-- Posting a message fails and changes nothing, or the open session takes the message. -/
lemma enqueue_cases (message : Envelope) :
    (∃ e, Delivery.enqueue message s = .error e s) ∨
      s.session.committed = false ∧ Delivery.enqueue message s =
        .ok () { s with
          session := { s.session with messages := s.session.messages ++ [message] } } := by
  rw [Delivery.enqueue_apply]
  cases henqueue : s.session.enqueue s.cancelled message with
  | error e => exact .inl ⟨e, rfl⟩
  | ok session =>
    obtain ⟨-, hopen, rfl⟩ := Session.enqueue_eq_ok_iff.1 henqueue
    exact .inr ⟨hopen, rfl⟩

/-- A commit fails and changes nothing, or it closes the session and the store takes the batch. -/
lemma commit_cases :
    (∃ e, Delivery.commit s = .error e s) ∨
      ∃ store log, s.session.committed = false ∧
        s.store.commit s.now s.session.writes s.session.messages = .ok store ∧
        Delivery.commit s = .ok () { s with session := .closed, store, log } := by
  rw [Delivery.commit_apply]
  cases hcommit : s.session.commit s.store s.cancelled s.now with
  | error e => exact .inl ⟨e, rfl⟩
  | ok stored =>
    obtain ⟨session, store⟩ := stored
    obtain ⟨-, hopen, rfl, hstore⟩ := Session.commit_eq_ok_iff.1 hcommit
    exact .inr ⟨store, _, hopen, hstore, rfl⟩

end Delivery

/-- A request that forwards nothing meets an error and changes nothing, or is answered and does what
such a request does. -/
lemma Scope.perform_cases {scope : Scope σ M} (h : scope.services.OfSession) {r : Request M}
    (hr : ¬ r.Forwards) (s : Delivery σ M) :
    (∃ e, scope.perform r s = .error e s) ∨
      ∃ answer s', scope.perform r s = .ok answer s' ∧ s.Does r answer s' := by
  cases r with
  | find key =>
    rcases OfSession.perform_find h key s with herror | hfind
    · exact .inl herror
    · rw [hfind, Delivery.find_apply]
      cases hread : s.session.find s.store s.cancelled key with
      | error e => exact .inl ⟨e, rfl⟩
      | ok record =>
        have hsame : record = s.session.read s.store key := by
          cases hlive : s.cancelled with
          | true =>
            rw [hlive] at hread
            cases hread
          | false =>
            rw [hlive] at hread
            cases hread
            rfl
        subst hsame
        exact .inr ⟨_, s, rfl, .find⟩
  | add record =>
    rcases OfSession.perform_add h record s with herror | hadd
    · exact .inl herror
    · rw [hadd]
      exact (Delivery.stage_cases (.add record)).imp_right fun hstage =>
        ⟨(), _, hstage.2, .add hstage.1⟩
  | update record =>
    rcases OfSession.perform_update h record s with herror | hupdate
    · exact .inl herror
    · rw [hupdate]
      exact (Delivery.stage_cases (.update record)).imp_right fun hstage =>
        ⟨(), _, hstage.2, .update hstage.1⟩
  | send command =>
    rcases OfSession.perform_send h command s with herror | hsend
    · exact .inl herror
    · rw [hsend]
      exact (Delivery.enqueue_cases command).imp_right fun henqueue =>
        ⟨(), _, henqueue.2, .send henqueue.1⟩
  | publish notification =>
    rcases OfSession.perform_publish h notification s with herror | hpublish
    · exact .inl herror
    · rw [hpublish]
      exact (Delivery.enqueue_cases notification).imp_right fun henqueue =>
        ⟨(), _, henqueue.2, .publish henqueue.1⟩
  | commit =>
    rcases OfSession.perform_commit h s with herror | hcommit
    · exact .inl herror
    · rw [hcommit]
      refine Delivery.commit_cases.imp_right ?_
      rintro ⟨store, log, hopen, hstore, hdone⟩
      exact ⟨(), _, hdone, .commit hopen hstore⟩
  | cancel => exact .inr ⟨(), _, rfl, .cancel⟩
  | isCancelled => exact .inr ⟨_, s, rfl, .isCancelled⟩
  | require service =>
    rw [perform_require]
    cases scope.services.get? service with
    | none => exact .inl ⟨_, rfl⟩
    | some _ => exact .inr ⟨(), s, rfl, .require⟩
  | provides service => exact .inr ⟨_, s, rfl, .provides⟩
  | forward definition message => exact absurd trivial hr
  | report entry => exact .inr ⟨(), _, rfl, .report⟩

/-- What is answered does what such a request does. -/
lemma Scope.does_of_perform {scope : Scope σ M} (h : scope.services.OfSession) {r : Request M}
    (hr : ¬ r.Forwards) {answer : r.Answer} {s s' : Delivery σ M}
    (hok : scope.perform r s = .ok answer s') : s.Does r answer s' := by
  rcases Scope.perform_cases h hr s with ⟨e, herror⟩ | ⟨answer', s'', hok', hdoes⟩
  · cases herror.symm.trans hok
  · cases hok'.symm.trans hok
    exact hdoes

namespace Delivery.Does

variable {s s' : Delivery σ M} {r : Request M} {answer : r.Answer}

/-- What stays inside the delivery leaves the store as it is. -/
lemma store (h : s.Does r answer s') (hr : r.StaysInside) : s'.store = s.store := by
  cases h with
  | commit => exact hr.elim
  | _ => rfl

/-- What neither stages a row nor commits leaves the store and the staged rows as they are. -/
lemma rows (h : s.Does r answer s') (hr : r.KeepsRows) :
    s'.store = s.store ∧ s'.session.writes = s.session.writes ∧
      s'.session.committed = s.session.committed := by
  cases h with
  | add => exact hr.elim
  | update => exact hr.elim
  | commit => exact hr.elim
  | _ => exact ⟨rfl, rfl, rfl⟩

/-- No blueprint comes or goes. -/
lemma registry (h : s.Does r answer s') : s'.registry = s.registry := by
  cases h <;> rfl

end Delivery.Does

/-- A write that was staged is the last one of its session. -/
lemma Script.run_staging_writes {ε α : Type} [FromEngine ε] {scope : Scope σ M}
    (h : scope.services.OfSession) {write : StagedWrite} {a a' : α} {s s' : Delivery σ M}
    (hrun : (staging write a : Script σ M ε α).run scope s = .ok a' s') :
    s'.session.writes = s.session.writes ++ [write] := by
  obtain ⟨_, s₁, hlive, hrun⟩ := run_bind_eq_ok scope hrun
  obtain ⟨_, s₂, hstage, hrun⟩ := run_bind_eq_ok scope hrun
  cases hrun
  rw [run_checkLive] at hlive
  split at hlive
  · cases hlive
  · cases hlive
    cases write with
    | add record =>
      obtain ⟨⟩ := Scope.does_of_perform h id (perform_of_run_ask scope hstage)
      rfl
    | update record =>
      obtain ⟨⟩ := Scope.does_of_perform h id (perform_of_run_ask scope hstage)
      rfl

/-- What everything keeps that the requests of a script do, of which none forwards a message, is
kept by a run of the script. -/
lemma Script.Only.run_does {ε α : Type} {scope : Scope σ M} {p : Request M → Prop}
    {I : Delivery σ M → Prop} (h : scope.services.OfSession) (hinside : ∀ r, p r → ¬ r.Forwards)
    (happ : ∀ (change : σ → σ) s, I s → I { s with app := change s.app })
    (hdoes : ∀ r (answer : r.Answer) s s', p r → s.Does r answer s' → I s → I s')
    {script : Script σ M ε α} (hscript : script.Only p) (s : Delivery σ M) (hs : I s) :
    I (Run.final (script.run scope s)) := by
  refine run_keeps happ ?_ hscript s hs
  intro r d hr hd
  rcases Scope.perform_cases h (hinside r hr) d with ⟨e, herror⟩ | ⟨answer, d', hok, hdone⟩
  · rw [herror]
    exact hd
  · rw [hok]
    exact hdoes r answer d d' hr hdone hd

end Saga
