import Saga.Proofs.Interleaving.Phases
import Saga.Proofs.Interleaving.Pool
import Saga.Proofs.Script.Regime

/-!
# One turn

What the phase of a dispatch says about its session and about the store (`Errand.Carries`) is kept
by every turn that it takes: either the turn leaves the committed rows alone, or it is the commit,
which moves one row on (`Errand.Turned`, `Errand.moved`). Other dispatches keep it too, since a row
that somebody moves on is still recalled.
-/

namespace Saga

variable {σ M : Type} [Message M]

/-- Whether the next turn of a script is to forward a message. -/
def Script.Forwards {ε α : Type} : Script σ M ε α → Prop
  | .request r _ => r.Forwards
  | _ => False

namespace Script

variable {ε α : Type} {scope : Scope σ M} {rest rest' : Script σ M ε α} {d d' : Delivery σ M}

omit [Message M] in
/-- A turn that forwards nothing moves the script and its delivery. -/
lemma turn_moved (hown : scope.services.OfSession) (hforwards : ¬ rest.Forwards)
    (d : Delivery σ M) : Moved d rest (rest.turn scope d).1 (rest.turn scope d).2 := by
  cases rest with
  | done a => exact .ended
  | fail error => exact .ended
  | app change next => exact .app
  | request r next =>
    rcases Scope.perform_cases hown hforwards d with
      ⟨error, hperform⟩ | ⟨answer, d', hperform, hdoes⟩
    · simp only [Script.turn, hperform]
      exact .refused (Scope.meets_of_error hperform)
        (Scope.perform_refusal hown hforwards hperform)
    · simp only [Script.turn, hperform]
      exact .answered hdoes

omit [Message M] in
/-- No move brings in a blueprint. -/
lemma Moved.registry (h : Moved d rest rest' d') : d'.registry = d.registry := by
  cases h with
  | answered hdoes => exact hdoes.registry
  | _ => rfl

omit [Message M] in
/-- A result that is certain stays so. -/
lemma Moved.settled (h : Moved d rest rest' d') {result : Except ε α}
    (hsettled : rest.settled? = some result) : rest'.settled? = some result := by
  cases h with
  | ended => exact hsettled
  | app => cases hsettled
  | @refused r next error hmeets _ =>
    cases r with
    | report entry => exact hmeets.elim
    | _ => cases hsettled
  | @answered r next answer d' hdoes =>
    cases r with
    | report entry => exact hsettled
    | _ => cases hsettled

omit [Message M] in
/-- A script that is about to forward has that as its next request. -/
lemma eq_of_forwards {rest : Script σ M ε α} (h : rest.Forwards) :
    ∃ id m next, rest = .request (.forward id m) next := by
  cases rest with
  | request r next =>
    cases r with
    | forward id m => exact ⟨id, m, next, rfl⟩
    | _ => exact h.elim
  | _ => exact h.elim

omit [Message M] in
/-- Before it forwards a message the result of a script is not certain. -/
lemma settled_of_forwards {rest : Script σ M ε α} (h : rest.Forwards) : rest.settled? = none := by
  obtain ⟨id, m, next, rfl⟩ := eq_of_forwards h
  rfl

end Script

namespace Pool

variable {p : Pool σ M} {i : Nat} {t : Task σ M}

/-- The turn of a task that forwards is the forwarding. -/
lemma turn_of_forward (hget : p.tasks[i]? = some t) {id : DefinitionId} {m : M}
    {next : Except EngineError String → Script σ M EngineError (Outcome t.definition.states)}
    (hrest : t.rest = .request (.forward id m) next) : p.turn i = p.forward i t id m next := by
  simp only [Pool.turn, hget, hrest]

/-- The turn of a task that forwards nothing is its own. -/
lemma turn_of_not_forwards (hget : p.tasks[i]? = some t) (hforwards : ¬ t.rest.Forwards) :
    p.turn i = p.advance i t := by
  simp only [Pool.turn, hget]
  split
  · next id m next hrest =>
    rw [hrest] at hforwards
    exact absurd trivial hforwards
  · rfl

end Pool

namespace Errand

/-- What a phase says about the session of a dispatch and about the store. -/
def Carries (e : Errand σ M) (store : Store) (session : Session) :
    Phase e.definition.states → Prop
  | .looking => session.writes = [] ∧ session.committed = false
  | .acting key found =>
    session.writes = [] ∧ session.committed = false ∧ e.Concerns key ∧ store.Knows key found
  | .holding key found write outcome =>
    session.writes = [write] ∧ session.committed = false ∧ e.Concerns key ∧
      store.Knows key found ∧ e.Earned key found write outcome
  | .landed _ => session.committed = true

variable {e : Errand σ M} {phase : Phase e.definition.states}

/-- A phase that the dispatch is in stays true while rows are moved on. -/
lemma Carries.mono {before after : Store} {session : Session}
    (h : e.Carries before session phase) (hrecalls : ∀ r, before.Recalls r → after.Recalls r) :
    e.Carries after session phase := by
  cases phase with
  | looking => exact h
  | acting key found =>
    obtain ⟨hwrites, hopen, hconcerns, hknows⟩ := h
    exact ⟨hwrites, hopen, hconcerns, hknows.mono hrecalls⟩
  | holding key found write outcome =>
    obtain ⟨hwrites, hopen, hconcerns, hknows, hearned⟩ := h
    exact ⟨hwrites, hopen, hconcerns, hknows.mono hrecalls, hearned⟩
  | landed outcome => exact h

/-- The same phase is carried by a session with the same staged rows. -/
lemma Carries.of_rows {store : Store} {session session' : Session}
    (h : e.Carries store session phase) (hwrites : session'.writes = session.writes)
    (hcommitted : session'.committed = session.committed) : e.Carries store session' phase := by
  cases phase with
  | looking => simpa [Carries, hwrites, hcommitted] using h
  | acting key found => simpa [Carries, hwrites, hcommitted] using h
  | holding key found write outcome => simpa [Carries, hwrites, hcommitted] using h
  | landed outcome => exact hcommitted.trans h

/-- What a request that is answered does to the session of a dispatch and to the store, whether or
not versions count. -/
inductive Stepped (e : Errand σ M) (phase : Phase e.definition.states) (d d' : Delivery σ M) :
    Phase e.definition.states → Prop where
  /-- The committed rows and messages are what they were. -/
  | quiet {phase'} :
    e.Carries d'.store d'.session phase' → d'.store = d.store →
    d'.session.committed = d.session.committed → Stepped e phase d d' phase'
  /-- The dispatch has committed the write that it held. -/
  | landed {key found write outcome} :
    phase = .holding key found write outcome →
    d.store.commit d.now [write] d.session.messages = .ok d'.store → d'.session = .closed →
    Stepped e phase d d' (.landed outcome)

/-- A request takes a dispatch on as its phase allows. -/
lemma stepped_of_moves {r : Request M} {answer : r.Answer} {d d' : Delivery σ M}
    {phase' : Phase e.definition.states} (hcarries : e.Carries d.store d.session phase)
    (hdoes : d.Does r answer d') (hmoves : e.Moves phase r (.ok answer) phase') :
    e.Stepped phase d d' phase' := by
  cases hmoves with
  | harmless hpending hr hlook =>
    obtain ⟨hstore, hwrites, hcommitted⟩ := hdoes.rows hr
    refine .quiet ?_ hstore hcommitted
    rw [hstore]
    exact hcarries.of_rows hwrites hcommitted
  | @found key found hconcerns =>
    obtain ⟨hwrites, hopen⟩ := hcarries
    cases hdoes
    refine .quiet ⟨hwrites, hopen, hconcerns, ?_⟩ rfl rfl
    -- Nothing is staged yet, so the session reads what was committed.
    have hread : d.session.read d.store key = (d.store.get? key).map StoredInstance.record := by
      simp [Session.read, Session.staged?, hwrites]
    rw [hread]
    exact Store.knows_get? d.store key
  | added hearned =>
    obtain ⟨hwrites, hopen, hconcerns, hknows⟩ := hcarries
    cases hdoes
    refine .quiet ⟨?_, hopen, hconcerns, hknows, hearned⟩ rfl rfl
    simp [hwrites]
  | updated hearned =>
    obtain ⟨hwrites, hopen, hconcerns, hknows⟩ := hcarries
    cases hdoes
    refine .quiet ⟨?_, hopen, hconcerns, hknows, hearned⟩ rfl rfl
    simp [hwrites]
  | committed =>
    obtain ⟨hwrites, -⟩ := hcarries
    cases hdoes with
    | commit _ hstore =>
      rw [hwrites] at hstore
      exact .landed rfl hstore rfl
  | reported =>
    cases hdoes
    exact .quiet hcarries rfl rfl

/-- The phases to which one turn can take a dispatch. -/
def Next (e : Errand σ M) (phase phase' : Phase e.definition.states) : Prop :=
  phase' = phase ∨ ∃ r answer, e.Moves phase r answer phase'

/-- A request that meets an error leaves a dispatch in its phase. -/
lemma Moves.of_error {r : Request M} {error : EngineError} {phase' : Phase e.definition.states}
    (h : e.Moves phase r (.error error) phase') : phase' = phase := by
  cases h with
  | failed _ => rfl
  | harmless _ _ _ => rfl

/-- Every move takes a dispatch on as its phase allows. -/
lemma stepped_of_moved {d d' : Delivery σ M}
    {rest rest' : Script σ M EngineError (Outcome e.definition.states)}
    (hmoved : Script.Moved d rest rest' d') (hfollows : e.Follows e.Ends phase rest)
    (hcarries : e.Carries d.store d.session phase) :
    ∃ phase', e.Follows e.Ends phase' rest' ∧ e.Next phase phase' ∧
      e.Stepped phase d d' phase' := by
  cases hmoved with
  | ended => exact ⟨phase, hfollows, .inl rfl, .quiet hcarries rfl rfl⟩
  | app => exact ⟨phase, hfollows.2 d.app, .inl rfl, .quiet hcarries rfl rfl⟩
  | @refused r next error hmeets _ =>
    obtain ⟨phase', hmoves, hrest⟩ := hfollows (.error error) hmeets
    cases hmoves.of_error
    exact ⟨phase, hrest, .inl rfl, .quiet hcarries rfl rfl⟩
  | @answered r next answer d' hdoes =>
    obtain ⟨phase', hmoves, hrest⟩ := hfollows (.ok answer) (r.meets_ok answer)
    exact ⟨phase', hrest, .inr ⟨r, _, hmoves⟩, stepped_of_moves hcarries hdoes hmoves⟩

/-- What a turn makes of a dispatch in a phase. -/
inductive Turned (e : Errand σ M) (phase : Phase e.definition.states) (d : Delivery σ M)
    (rest : Script σ M EngineError (Outcome e.definition.states)) (d' : Delivery σ M) : Prop where
  /-- The committed rows and messages are what they were. -/
  | quiet {phase'} :
    e.Follows e.Ends phase' rest → e.Carries d'.store d'.session phase' →
    d'.store = d.store → d'.session.committed = d.session.committed →
    Turned e phase d rest d'
  /-- The dispatch has committed the write that it held. -/
  | committed {key write outcome row messages} :
    e.Follows e.Ends (.landed outcome) rest → d.session.committed = false →
    d'.session.committed = true → d.session.writes = [write] → write.record.key = key →
    e.Concerns key → row.record.key = key → Store.Landed d.store d'.store row messages →
    e.Advances key outcome (d.store.get? key) row →
    (∀ old, d.store.get? key = some old → old.record.version < row.record.version) →
    Turned e phase d rest d'

/-- Where versions count, a commit moves the row on by the rule that was there for it. -/
lemma moved (e : Errand σ M) {phase : Phase e.definition.states} {d d' : Delivery σ M}
    {rest rest' : Script σ M EngineError (Outcome e.definition.states)}
    (hoptimistic : d.store.options.optimisticConcurrency = true)
    (hmoved : Script.Moved d rest rest' d') (hfollows : e.Follows e.Ends phase rest)
    (hcarries : e.Carries d.store d.session phase) : e.Turned phase d rest' d' := by
  obtain ⟨phase', hfollows', -, hstepped⟩ := stepped_of_moved hmoved hfollows hcarries
  cases hstepped with
  | quiet hcarries' hstore hcommitted => exact .quiet hfollows' hcarries' hstore hcommitted
  | @landed key found write outcome hphase hstore hsession =>
    subst hphase
    obtain ⟨hwrites, hopen, hconcerns, hknows, hearned⟩ := hcarries
    obtain ⟨row, hrow, hlanded, hadvances, hmoved⟩ := hearned.lands hknows hoptimistic hstore
    have hclosed : d'.session.committed = true := by rw [hsession]; rfl
    exact .committed hfollows' hopen hclosed hwrites (hearned.record_key hknows.record_key)
      hconcerns hrow
      hlanded hadvances hmoved

/-- A dispatch whose result is certain ends with one that its phase allows. -/
lemma Follows.ends {rest : Script σ M EngineError (Outcome e.definition.states)}
    (h : e.Follows e.Ends phase rest) {outcome : Outcome e.definition.states}
    (hsettled : rest.settled? = some (.ok outcome)) : e.Ends phase outcome := by
  induction rest with
  | done a =>
    cases hsettled
    exact h
  | fail error => cases hsettled
  | app change next ih => cases hsettled
  | request r next ih =>
    cases r with
    | report entry =>
      obtain ⟨phase', hmoves, hrest⟩ := h (.ok ()) trivial
      -- To report leaves the phase as it is.
      cases hmoves with
      | harmless _ _ _ => exact ih (.ok ()) hrest hsettled
      | reported => exact ih (.ok ()) hrest hsettled
    | _ => cases hsettled

/-- After its commit the result of a dispatch is certain. -/
lemma Follows.settled {rest : Script σ M EngineError (Outcome e.definition.states)}
    {outcome : Outcome e.definition.states} (h : e.Follows e.Ends (.landed outcome) rest) :
    rest.settled? = some (.ok outcome) := by
  induction rest with
  | done a =>
    have hsame : outcome = a := h
    subst hsame
    rfl
  | fail error => exact h.elim
  | app change next ih => exact h.1.elim
  | request r next ih =>
    cases r with
    | report entry =>
      obtain ⟨phase', hmoves, hrest⟩ := h (.ok ()) trivial
      cases hmoves with
      | harmless hpending _ _ => exact hpending.elim
      | reported => exact ih (.ok ()) hrest
    -- Any other request could fail, which a script that has landed may not.
    | _ =>
      obtain ⟨phase', hmoves, -⟩ := h (.error .cancelled) trivial
      cases hmoves with
      | failed hpending => exact hpending.elim
      | harmless hpending _ _ => exact hpending.elim

end Errand

end Saga
