import Mathlib.Data.List.Induction
import Saga.Proofs.Interleaving.Steady

/-!
# From the look-up to the commit

A dispatch looks its instance up once, and all it asks before is harmless
(`Errand.script_eq_approach`). So a task that is about to commit has looked its instance up in a
turn of its own (`Pool.looked_up`). From that turn on what it has found is what stands under the
key, for as long as nobody commits a write to the row (`Pool.Undisturbed`).
-/

namespace Saga

variable {σ M : Type}

/-- Whether a request asks for the unit of work to be there. -/
def Request.isForUnitOfWork : Request M → Bool
  | .require .unitOfWork => true
  | _ => false

/-- A request to the unit of work is answered only where one is registered. -/
lemma Scope.contains_of_perform {scope : Scope σ M} {r : Request M} {answer : r.Answer}
    {d d' : Delivery σ M} (hr : r.isForUnitOfWork = true)
    (hperform : scope.perform r d = .ok answer d') :
    scope.services.contains .unitOfWork = true := by
  unfold Request.isForUnitOfWork at hr
  split at hr
  · rw [perform_require] at hperform
    unfold Services.contains
    cases hservice : scope.services.get? .unitOfWork with
    | none =>
      rw [hservice] at hperform
      cases hperform
    | some p => rfl
  · cases hr

variable [Message M]

namespace Errand
open Script

/-- What is left of a dispatch that is about to look up the instance under a key. -/
def lookUp (e : Errand σ M) (key : InstanceKey) :
    Script σ M EngineError (Outcome e.definition.states) :=
  (find key).bind fun found =>
    (e.definition.react e.options e.blueprint key e.message found).bind e.definition.conclude

/-- What a dispatch does before it looks its instance up. -/
def approach (e : Errand σ M) : Script σ M EngineError InstanceKey :=
  (Script.ofExcept (e.blueprint.correlate e.message)).bind fun id =>
    (require .repository).bind fun _ =>
      (require .unitOfWork).bind fun _ =>
        Script.checkLive.bind fun _ => done ⟨id, e.definition.id.name⟩

/-- A dispatch approaches its look-up and goes on with it. -/
lemma script_eq_approach (e : Errand σ M) : e.script = e.approach.bind e.lookUp := by
  simp only [Errand.script, Definition.script_eq, Definition.locate, approach, bind_eq, pure_eq,
    bind_assoc, done_bind]
  rfl

/-- Neither row nor commit is asked for. It is known whether the unit of work is registered. -/
def harmless (M : Type) : Regime M EngineError Bool where
  permits _ r := r.KeepsRows
  after known r answer := known || r.isForUnitOfWork && answer.isOk

/-- Whether an instance may be looked up: the key is that of the message, and the unit of work is
known to be registered. -/
def Approached (e : Errand σ M) (known : Bool) (key : InstanceKey) : Prop :=
  known = true ∧ e.Concerns key

/-- On its way to the look-up a dispatch asks for no row and no commit, and comes there only with a
unit of work. -/
lemma approach_heeds (e : Errand σ M) :
    e.approach.Heeds (harmless M) e.Approached false := by
  unfold approach
  cases hcorrelate : e.blueprint.correlate e.message with
  | error error => exact trivial
  | ok id =>
    have hrepository : (require .repository : Script σ M EngineError Unit).Heeds (harmless M)
        (fun _ _ => True) false :=
      .ask trivial (fun _ _ => trivial) fun _ _ => trivial
    refine hrepository.bind fun known _ _ => ?_
    have hunit : (require .unitOfWork : Script σ M EngineError Unit).Heeds (harmless M)
        (fun known _ => known = true) known :=
      .ask trivial (fun _ _ => trivial) fun _ _ => Bool.or_true known
    refine hunit.bind fun known _ hknown => ?_
    have hlive : (Script.checkLive : Script σ M EngineError Unit).Heeds (harmless M)
        (fun known _ => known = true) known := by
      have hask : (ask .isCancelled : Script σ M EngineError Bool).Heeds (harmless M)
          (fun known _ => known = true) known :=
        .ask trivial (fun _ _ => trivial) fun _ _ => (Bool.or_false known).trans hknown
      refine hask.bind fun known cancelled hknown => ?_
      cases (cancelled : Bool) with
      | true => trivial
      | false => exact hknown
    exact hlive.bind fun _ _ hknown => ⟨hknown, hcorrelate, rfl⟩

end Errand

namespace Task

/-- Whether a task has not come to its look-up yet. -/
def Seeks (t : Task σ M) : Prop :=
  ∃ (front : Script σ M EngineError InstanceKey) (known : Bool),
    t.rest = front.bind t.toErrand.lookUp ∧
    front.Heeds (Errand.harmless M) t.toErrand.Approached known ∧
    (known = true → t.services.contains .unitOfWork = true) ∧
    t.session.writes = [] ∧ t.session.committed = false

/-- Whether a task is about to look up the instance under a key. -/
structure LooksUp (t : Task σ M) (key : InstanceKey) : Prop where
  rest : t.rest = t.toErrand.lookUp key
  registered : t.services.contains .unitOfWork = true
  concerns : t.toErrand.Concerns key
  writes : t.session.writes = []
  isOpen : t.session.committed = false

end Task

namespace Pool

variable {p : Pool σ M} {i : Nat} {t t' : Task σ M}

/-- What an event makes of a task that is there: it is marked, it is answered what it has forwarded,
or it takes a turn of its own, in which case the event is that turn. -/
inductive Affects (p : Pool σ M) (event : Event σ M) (i : Nat) (t : Task σ M) :
    Task σ M → Prop where
  | marked (cancelled : Bool) (awaited : Option Nat) :
    Affects p event i t { t with cancelled, awaited }
  | told {id m next answer awaited} : t.rest = .request (.forward id m) next →
    Affects p event i t { t with rest := next answer, awaited }
  | moved {rest d} : event = .turn i → ¬ t.rest.Forwards →
    t.rest.turn t.scope (t.delivery p.engine) = (rest, d) →
    Affects p event i t { t with session := d.session, cancelled := d.cancelled, rest }

/-- Whether a task in some place comes from an event: the event has started it, or there was a task
in the place that the event has affected. -/
def ComesFrom (p : Pool σ M) (event : Event σ M) (i : Nat) (t' : Task σ M) : Prop :=
  (∃ job b, t' = Job.task job b) ∨ ∃ t, p.tasks[i]? = some t ∧ p.Affects event i t t'

/-- A task that an event leaves alone comes from it. -/
lemma comesFrom_same {event : Event σ M} (hget : p.tasks[i]? = some t) : p.ComesFrom event i t :=
  .inr ⟨t, hget, .marked t.cancelled t.awaited⟩

/-- After an event on one task all tasks come from it. -/
lemma comesFrom_put {event : Event σ M} {j : Nat} {u u' : Task σ M} (hu : p.tasks[j]? = some u)
    (haffects : p.Affects event j u u') (hget : (p.tasks.set j u')[i]? = some t') :
    p.ComesFrom event i t' := by
  rcases getElem?_set_cases hget with ⟨rfl, rfl⟩ | ⟨-, hget⟩
  · exact .inr ⟨u, hu, haffects⟩
  · exact comesFrom_same hget

/-- After a launch the new task comes from it, and the others are as they were. -/
lemma comesFrom_launch {event : Event σ M} {job : Job σ M} {launched : Pool σ M}
    (hlaunch : p.launch job = .ok launched) (hget : launched.tasks[i]? = some t') :
    p.ComesFrom event i t' := by
  unfold Pool.launch at hlaunch
  split at hlaunch
  · cases hlaunch
    rcases getElem?_concat_cases hget with hget | ⟨-, rfl⟩
    · exact comesFrom_same hget
    · exact .inl ⟨job, _, rfl⟩
  · cases hlaunch

/-- After a message is forwarded all tasks come from it. -/
lemma comesFrom_forward {event : Event σ M} {j : Nat} {u : Task σ M} (hu : p.tasks[j]? = some u)
    {id : DefinitionId} {m : M}
    {next : Except EngineError String → Script σ M EngineError (Outcome u.definition.states)}
    (hrest : u.rest = .request (.forward id m) next)
    (hget : (p.forward j u id m next).tasks[i]? = some t') : p.ComesFrom event i t' := by
  have htold : ∀ answer awaited,
      (p.tasks.set j { u with rest := next answer, awaited })[i]? = some t' →
        p.ComesFrom event i t' :=
    fun answer awaited => comesFrom_put hu (.told hrest)
  unfold Pool.forward at hget
  split at hget
  · split at hget
    · exact htold _ _ hget
    · exact comesFrom_same hget
  · split at hget
    · exact htold _ u.awaited hget
    · split at hget
      · exact htold _ u.awaited hget
      · split at hget
        · next launched hlaunch =>
          rcases getElem?_set_cases hget with ⟨rfl, rfl⟩ | ⟨-, hget⟩
          · exact .inr ⟨u, hu, .marked u.cancelled _⟩
          · exact comesFrom_launch hlaunch hget
        · exact htold _ u.awaited hget

/-- All tasks after an event come from it. -/
lemma comesFrom_step {event : Event σ M} (hget : (p.step event).tasks[i]? = some t') :
    p.ComesFrom event i t' := by
  cases event with
  | start job =>
    simp only [Pool.step] at hget
    cases hlaunch : p.launch job with
    | error e =>
      rw [hlaunch] at hget
      exact comesFrom_same hget
    | ok launched =>
      rw [hlaunch] at hget
      exact comesFrom_launch hlaunch hget
  | turn j =>
    change (p.turn j).tasks[i]? = some t' at hget
    cases hu : p.tasks[j]? with
    | none =>
      simp only [Pool.turn, hu] at hget
      exact comesFrom_same hget
    | some u =>
      by_cases hforwards : u.rest.Forwards
      · obtain ⟨id, m, next, hrest⟩ := Script.eq_of_forwards hforwards
        rw [turn_of_forward hu hrest] at hget
        exact comesFrom_forward hu hrest hget
      · rw [turn_of_not_forwards hu hforwards] at hget
        rcases getElem?_set_cases hget with ⟨rfl, rfl⟩ | ⟨-, hget⟩
        · exact .inr ⟨u, hu, .moved rfl hforwards rfl⟩
        · exact comesFrom_same hget
  | cancel j =>
    simp only [Pool.step] at hget
    split at hget
    · exact comesFrom_same hget
    · next u hu => exact comesFrom_put hu (.marked true u.awaited) hget
  | tick now => exact comesFrom_same hget
  | drain => exact comesFrom_same hget

/-- A task that has not come to its look-up yet is about to make it, or has not come to it after the
next event either. -/
lemma Affects.seeks {event : Event σ M} (h : p.Affects event i t t') (hseeks : t.Seeks) :
    t'.Seeks ∨ event = .turn i ∧ ∃ key, t.LooksUp key := by
  obtain ⟨front, known, hrest, hheeds, hknown, hwrites, hopen⟩ := hseeks
  -- All that a request can teach is that the unit of work is there, if it is.
  have hlearns : ∀ (r : Request M) (answer : Except EngineError r.Answer),
      (r.isForUnitOfWork = true → answer.isOk = true →
        t.services.contains .unitOfWork = true) →
      (Errand.harmless M).after known r answer = true →
      t.services.contains .unitOfWork = true := by
    intro r answer hfound hafter
    rcases Bool.or_eq_true_iff.1 hafter with hbefore | hanswered
    · exact hknown hbefore
    · obtain ⟨hunit, hanswer⟩ := Bool.and_eq_true_iff.1 hanswered
      exact hfound hunit hanswer
  cases h with
  | marked => exact .inl ⟨front, known, hrest, hheeds, hknown, hwrites, hopen⟩
  | @told id m next answer awaited htold =>
    rw [hrest] at htold
    cases front with
    | done key => cases htold
    | fail e => cases htold
    | app change nextFront => cases htold
    | request r nextFront =>
      cases htold
      refine .inl ⟨nextFront answer, _, rfl, hheeds.2 answer trivial, hlearns _ answer ?_, hwrites,
        hopen⟩
      intro hunit
      cases hunit
  | @moved rest d hevent hforwards hturn =>
    rw [hrest] at hforwards hturn
    cases front with
    | done key =>
      obtain ⟨hregistered, hconcerns⟩ := hheeds
      exact .inr ⟨hevent, key, hrest, hknown hregistered, hconcerns, hwrites, hopen⟩
    | fail e =>
      cases hturn
      exact .inl ⟨.fail e, known, rfl, hheeds, hknown, hwrites, hopen⟩
    | app change nextFront =>
      cases hturn
      exact .inl ⟨nextFront _, known, rfl, hheeds _, hknown, hwrites, hopen⟩
    | request r nextFront =>
      obtain ⟨hr, hnext⟩ := hheeds
      have hown : t.scope.services.OfSession := t.own
      simp only [Script.bind, Script.turn] at hturn
      rcases Scope.perform_cases hown hforwards (t.delivery p.engine) with
        ⟨e, hperform⟩ | ⟨answer, d', hperform, hdoes⟩
      · rw [hperform] at hturn
        cases hturn
        refine .inl ⟨nextFront (.error e), _, rfl, hnext _ trivial, hlearns r _ ?_, hwrites, hopen⟩
        intro _ hanswered
        cases hanswered
      · rw [hperform] at hturn
        cases hturn
        obtain ⟨-, hwrites', hcommitted⟩ := hdoes.rows hr
        refine .inl ⟨nextFront (.ok answer), _, rfl, hnext _ trivial, hlearns r _ ?_,
          hwrites'.trans hwrites, hcommitted.trans hopen⟩
        intro hunit _
        exact Scope.contains_of_perform hunit hperform

/-- A task has not come to its look-up yet, or it was made in one of the turns of the task. -/
lemma looked_up (p : Pool σ M) (hp : p.tasks = []) (events : List (Event σ M))
    (hget : (p.run events).tasks[i]? = some t) :
    t.Seeks ∨ ∃ before between t₀ key, events = before ++ .turn i :: between ∧
      (p.run before).tasks[i]? = some t₀ ∧ t₀.LooksUp key := by
  induction events using List.reverseRecOn generalizing t with
  | nil =>
    have hnone : p.tasks[i]? = some t := hget
    rw [hp] at hnone
    cases hnone
  | append_singleton events event ih =>
    rw [Pool.run, List.foldl_append] at hget
    rcases comesFrom_step hget with ⟨job, b, rfl⟩ | ⟨t₁, hget₁, haffects⟩
    · left
      exact ⟨_, false, Errand.script_eq_approach (job.task b).toErrand, Errand.approach_heeds _,
        nofun, rfl, rfl⟩
    · rcases ih hget₁ with hseeks | ⟨before, between, t₀, key, rfl, hget₀, hlooks⟩
      · rcases haffects.seeks hseeks with hseeks' | ⟨rfl, key, hlooks⟩
        · exact .inl hseeks'
        · exact .inr ⟨events, [], t₁, key, rfl, hget₁, hlooks⟩
      · right
        refine ⟨before, between ++ [event], t₀, key, ?_, hget₀, hlooks⟩
        rw [List.append_assoc, List.cons_append]

end Pool

/-- Whether a dispatch that has looked up the instance under a key has found what `p` says. -/
def Phase.Found {S : StateSet} (key : InstanceKey) (p : Option InstanceRecord → Prop) :
    Phase S → Prop
  | looking => False
  | acting key' found | holding key' found _ _ => key' = key ∧ p found
  | landed _ => True

/-- What was found with a property was found with any weaker one. -/
lemma Phase.Found.mono {S : StateSet} {phase : Phase S} {key : InstanceKey}
    {p q : Option InstanceRecord → Prop} (h : phase.Found key p)
    (hpq : ∀ found, p found → q found) : phase.Found key q := by
  cases phase with
  | looking => exact h
  | acting key' found => exact ⟨h.1, hpq _ h.2⟩
  | holding key' found write outcome => exact ⟨h.1, hpq _ h.2⟩
  | landed outcome => trivial

namespace Errand

variable {e : Errand σ M} {phase phase' : Phase e.definition.states} {key : InstanceKey}
  {p : Option InstanceRecord → Prop}

/-- What a dispatch has found it keeps in mind through every next phase. -/
lemma Next.found (h : e.Next phase phase') (hfound : phase.Found key p) : phase'.Found key p := by
  obtain rfl | ⟨r, answer, hmoves⟩ := h
  · exact hfound
  · cases hmoves with
    | failed _ => exact hfound
    | harmless _ _ _ => exact hfound
    | found _ => exact hfound.elim
    | added _ => exact hfound
    | updated _ => exact hfound
    | committed => trivial
    | reported => trivial

/-- The store takes what a dispatch has earned from the row that is still there. -/
lemma Earned.commits {s : Store} {found : Option InstanceRecord} {write : StagedWrite}
    {outcome : Outcome e.definition.states} (h : e.Earned key found write outcome)
    (hfound : found = (s.get? key).map StoredInstance.record) (now : Timestamp)
    (messages : List Envelope) : ∃ after, s.commit now [write] messages = .ok after := by
  have hupdate : ∀ record ordinal, some record = (s.get? key).map StoredInstance.record →
      ∃ after, s.commit now [.update (record.withState ordinal)] messages = .ok after := by
    intro record ordinal hrecord
    obtain ⟨row, hrow, rfl⟩ := Option.map_eq_some_iff.1 hrecord.symm
    have hkey : row.record.key = key := InstanceTable.key_of_get? hrow
    rw [← hkey] at hrow
    obtain ⟨after, hcommit, -⟩ :=
      Store.exists_commit_update now (row.record.withState ordinal) hrow rfl messages
    exact ⟨after, hcommit⟩
  cases h with
  | @started rule _ =>
    have hnone : s.get? key = none := Option.map_eq_none_iff.1 hfound.symm
    obtain ⟨after, hcommit, -⟩ :=
      Store.exists_commit_add now (.fresh key rule.target.ordinal) hnone messages
    exact ⟨after, hcommit⟩
  | transferred _ _ => exact hupdate _ _ hfound
  | kept _ _ _ => exact hupdate _ _ hfound

/-- The turn in which a dispatch looks its instance up changes nothing. It fails, or it has found
the row that stands under the key. -/
lemma turn_lookUp (e : Errand σ M) (key : InstanceKey) {scope : Scope σ M}
    (hown : scope.services.OfSession) {d : Delivery σ M} (hwrites : d.session.writes = []) :
    ∃ rest, (e.lookUp key).turn scope d = (rest, d) ∧
      ((∃ error, rest = .fail error) ∨
        rest = (e.definition.react e.options e.blueprint key e.message
          ((d.store.get? key).map StoredInstance.record)).bind e.definition.conclude) := by
  have hread : d.session.read d.store key = (d.store.get? key).map StoredInstance.record := by
    simp [Session.read, Session.staged?, hwrites]
  have hforwards : ¬ (Request.find key : Request M).Forwards := id
  simp only [lookUp, Script.find, Script.ask, Script.bind, Script.turn]
  rcases Scope.perform_cases hown hforwards d with ⟨error, hperform⟩ | ⟨answer, d', hperform, hdoes⟩
  · rw [hperform]
    exact ⟨_, rfl, .inl ⟨error, rfl⟩⟩
  · cases hdoes
    rw [hperform, hread]
    exact ⟨_, rfl, .inr rfl⟩

/-- A dispatch goes by the phases from its look-up to its end. -/
lemma found_follows (h : e.blueprint.Only Request.KeepsRows e.message) (key : InstanceKey)
    (found : Option InstanceRecord) :
    e.Follows e.Ends (.acting key found)
      ((e.definition.react e.options e.blueprint key e.message found).bind
        e.definition.conclude) :=
  (react_follows h key found).bind fun _ _ hholds => conclude_follows hholds

end Errand

namespace Pool

variable {p p' : Pool σ M} {i : Nat} {t t' : Task σ M} {key : InstanceKey}

/-- Whether a task has failed, or has its unit of work and is in a phase in which it has found what
`q` says. -/
def Informed (t : Task σ M) (store : Store) (key : InstanceKey)
    (q : Option InstanceRecord → Prop) : Prop :=
  (∃ e, t.rest = .fail e) ∨
    t.services.contains .unitOfWork = true ∧
      ∃ phase, t.toErrand.Follows t.toErrand.Ends phase t.rest ∧
        t.toErrand.Carries store t.session phase ∧ phase.Found key q

/-- What is true from the look-up of a task on: `writers` had written to the row by then, and if
nobody has since, then the task has found what stands under the key. -/
structure Undisturbed (writers : List Nat) (i : Nat) (key : InstanceKey) (p : Pool σ M) : Prop where
  steady : p.Steady
  onward : writers <+: p.writers key
  informed : ∃ t, p.tasks[i]? = some t ∧ Informed t p.engine.store key fun found =>
    p.writers key = writers → found = (p.engine.store.get? key).map StoredInstance.record

/-- A task stays informed while the store recalls what it recalled, with any weaker property. -/
lemma Informed.mono {before after : Store} {q q' : Option InstanceRecord → Prop}
    (h : Informed t before key q) (hrecalls : ∀ r, before.Recalls r → after.Recalls r)
    (hq : ∀ found, q found → q' found) : Informed t after key q' := by
  rcases h with hfailed | ⟨hregistered, phase, hfollows, hcarries, hfound⟩
  · exact .inl hfailed
  · exact .inr ⟨hregistered, phase, hfollows, hcarries.mono hrecalls, hfound.mono hq⟩

/-- Every change keeps what is true of a task since its look-up. -/
lemma Undisturbed.change {writers : List Nat} (h : Undisturbed writers i key p)
    (hchange : Change Definition.Tame p p') : Undisturbed writers i key p' := by
  obtain ⟨t, hget, hinformed⟩ := h.informed
  obtain ⟨hmore, hsame⟩ := h.steady.onward hchange key
  have hrecalls : ∀ r, p.engine.store.Recalls r → p'.engine.store.Recalls r :=
    fun r => h.steady.recalls hchange
  -- Writers are never forgotten: with none more after the change, there was none more before it.
  have hstill : ∀ found : Option InstanceRecord,
      (p.writers key = writers → found = (p.engine.store.get? key).map StoredInstance.record) →
        p'.writers key = writers →
          found = (p'.engine.store.get? key).map StoredInstance.record := by
    intro found hfound hnobody
    have hlength := hmore.length_le
    rw [hnobody] at hlength
    have hbefore : writers = p.writers key :=
      h.onward.eq_of_length (Nat.le_antisymm h.onward.length_le hlength)
    rw [hsame (hnobody.trans hbefore)]
    exact hfound hbefore.symm
  have hkept := hinformed.mono hrecalls hstill
  refine ⟨h.steady.change hchange, h.onward.trans hmore, ?_⟩
  cases hchange with
  | ticked => exact ⟨t, hget, hkept⟩
  | drained => exact ⟨t, hget, hkept⟩
  | launched _ _ =>
    refine ⟨t, ?_, hkept⟩
    exact (List.getElem?_append_left (List.getElem?_eq_some_iff.1 hget).1).trans hget
  | @marked j u cancelled awaited hu =>
    rcases getElem?_set_of hget hu with ⟨rfl, rfl, hset⟩ | hset
    · exact ⟨_, hset, hkept⟩
    · exact ⟨t, hset, hkept⟩
  | @told j u id m next answer awaited hu hrest =>
    rcases getElem?_set_of hget hu with ⟨rfl, rfl, hset⟩ | hset
    · refine ⟨_, hset, ?_⟩
      rcases hkept with ⟨e, hfailed⟩ | ⟨hregistered, phase, hfollows, hcarries, hfound⟩
      · cases hrest.symm.trans hfailed
      · rw [hrest] at hfollows
        obtain ⟨phase', hmoves, hnext⟩ := hfollows answer trivial
        cases hmoves.of_forward
        exact .inr ⟨hregistered, phase, hnext, hcarries, hfound⟩
    · exact ⟨t, hset, hkept⟩
  | @moved j u rest d hu hmoved =>
    rcases getElem?_set_of hget hu with ⟨rfl, rfl, hset⟩ | hset
    · refine ⟨_, hset, ?_⟩
      rcases hinformed with ⟨e, hfailed⟩ | ⟨hregistered, phase, hfollows, hcarries, hfound⟩
      · rw [hfailed] at hmoved
        cases hmoved
        exact .inl ⟨e, rfl⟩
      · obtain ⟨phase', hfollows', hnext, hstepped⟩ :=
          Errand.stepped_of_moved hmoved hfollows hcarries
        exact .inr ⟨hregistered, phase', hfollows', hstepped.carries,
          (hnext.found hfound).mono hstill⟩
    · exact ⟨t, hset, hkept⟩

/-- The look-up of a task begins what is true of it from then on. -/
lemma Steady.undisturbed (h : p.Steady) (hget : p.tasks[i]? = some t) (hlooks : t.LooksUp key) :
    Undisturbed (p.writers key) i key (p.turn i) := by
  obtain ⟨hrest, hregistered, hconcerns, hwrites, hopen⟩ := hlooks
  have hforwards : ¬ t.rest.Forwards := by
    rw [hrest]
    exact id
  have hown : t.scope.services.OfSession := t.own
  have hchange : Change Definition.Tame p (p.turn i) := by
    rw [turn_of_not_forwards hget hforwards]
    exact .moved hget (Script.turn_moved hown hforwards (t.delivery p.engine))
  refine ⟨h.change hchange, (h.onward hchange key).1, ?_⟩
  obtain ⟨rest, hturn, hcases⟩ :=
    t.toErrand.turn_lookUp key hown (d := t.delivery p.engine) hwrites
  rw [← hrest] at hturn
  rw [turn_of_not_forwards hget hforwards]
  simp only [Pool.advance, hturn]
  refine ⟨_, List.getElem?_set_self (List.getElem?_eq_some_iff.1 hget).1, ?_⟩
  rcases hcases with hfailed | hfound
  · exact .inl hfailed
  · right
    refine ⟨hregistered, .acting key ((p.engine.store.get? key).map StoredInstance.record),
      ?_, ?_, rfl, ?_⟩
    · rw [hfound]
      exact Errand.found_follows (h.tame i t hget) key _
    · exact ⟨hwrites, hopen, hconcerns, Store.knows_get? _ key⟩
    · exact fun _ => rfl

end Pool

end Saga
