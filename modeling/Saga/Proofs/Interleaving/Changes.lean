import Mathlib.Logic.Relation
import Saga.Proofs.Dispatch.Fetch
import Saga.Proofs.Interleaving.Turns
import Saga.Proofs.Lists

/-!
# What happens in a pool

An event of a pool comes down to changes of six kinds (`Pool.Change`): the clock goes on, the outbox
is handed out, a dispatch starts, a task is cancelled or made to wait, a task is answered what it
has forwarded, or a task takes a turn of its own, which is one of four moves of its script
(`Script.Moved`). What every change keeps is kept by every run (`Pool.run_keeps`), so an invariant
of pools needs one argument for each kind of change, and says nothing of how events are handled.
-/

namespace Saga

variable {σ M : Type}

/-- A script whose result is certain has one that the regime allows, as to report teaches nothing.
-/
lemma Script.Heeds.settled {ε α γ : Type} {regime : Regime M ε γ} {post : γ → α → Prop} {known : γ}
    {rest : Script σ M ε α} (h : rest.Heeds regime post known)
    (hreport : ∀ known entry, regime.meets known (.report entry) (.ok ()) ∧
      regime.after known (.report entry) (.ok ()) = known) :
    (∀ a, rest.settled? = some (.ok a) → post known a) ∧
      ∀ e, rest.settled? = some (.error e) → regime.fails e := by
  induction rest with
  | done a =>
    refine ⟨?_, nofun⟩
    rintro _ ⟨⟩
    exact h
  | fail e =>
    refine ⟨nofun, ?_⟩
    rintro _ ⟨⟩
    exact h
  | app change next ih => exact ⟨nofun, nofun⟩
  | request r next ih =>
    cases r with
    | report entry =>
      obtain ⟨hmeets, hsame⟩ := hreport known entry
      have hnext := h.2 (.ok ()) hmeets
      rw [hsame] at hnext
      exact ih (.ok ()) hnext
    | _ => exact ⟨nofun, nofun⟩

namespace Pool

variable [Message M]

/-- Whether a dispatch may start: it is of a definition that is allowed, or a task forwards a
message, and the pool knows the definition. -/
def Asked (allowed : Definition σ M → Prop) (p : Pool σ M) (d : Definition σ M) : Prop :=
  allowed d ∨ d ∈ p.router.definitions ∧
    ∃ (i : Nat) (t : Task σ M), p.tasks[i]? = some t ∧ t.rest.Forwards

/-- One thing that happens in a pool to which only dispatches of some definitions come. -/
inductive Change (allowed : Definition σ M → Prop) (p : Pool σ M) : Pool σ M → Prop where
  | ticked {now} : Change allowed p { p with engine := { p.engine with now } }
  | drained :
    Change allowed p { p with engine := { p.engine with store := p.engine.store.drain.2 } }
  /-- A dispatch has its blueprint and becomes a task. -/
  | launched {job : Job σ M} {registry log b} : p.Asked allowed job.definition →
    Registry.Origin job.definition (Message.type job.message) p.engine.registry b registry →
    Change allowed p { p with
      engine := { p.engine with registry, log }
      tasks := p.tasks ++ [job.task b] }
  /-- A task is cancelled, or waits for another one. -/
  | marked {i t cancelled awaited} : p.tasks[i]? = some t →
    Change allowed p (p.put i { t with cancelled, awaited })
  /-- A task is answered what it has forwarded. -/
  | told {i t id m next answer awaited} : p.tasks[i]? = some t →
    t.rest = .request (.forward id m) next →
    Change allowed p (p.put i { t with rest := next answer, awaited })
  /-- A task takes a turn of its own. -/
  | moved {i t rest d} : p.tasks[i]? = some t →
    Script.Moved (t.delivery p.engine) t.rest rest d →
    Change allowed p { p with
      engine := d.toEngine
      tasks := p.tasks.set i { t with session := d.session, cancelled := d.cancelled, rest }
      commits := p.commits ++
        if d.session.committed && !t.session.committed then [⟨i, t.session.writes⟩] else [] }

/-- Whether a pool becomes another one by changes. -/
def Changes (allowed : Definition σ M → Prop) : Pool σ M → Pool σ M → Prop :=
  Relation.ReflTransGen (Change allowed)

variable {allowed : Definition σ M → Prop} {p p' : Pool σ M} {i : Nat} {t : Task σ M}

/-- A dispatch that starts is a change that leaves the tasks where they are. -/
lemma change_of_launch {job : Job σ M} (hasked : p.Asked allowed job.definition)
    (hlaunch : p.launch job = .ok p') :
    Change allowed p p' ∧
      ∀ (i : Nat) (t : Task σ M), p.tasks[i]? = some t → p'.tasks[i]? = some t := by
  unfold Pool.launch at hlaunch
  rcases Registry.blueprint_cases job.definition (Message.type job.message)
      (p.engine.delivery job.cancelled) with ⟨error, hfetch⟩ | ⟨b, registry, log, hfetch, horigin⟩
  · rw [hfetch] at hlaunch
    cases hlaunch
  · rw [hfetch] at hlaunch
    cases hlaunch
    refine ⟨.launched hasked horigin, ?_⟩
    intro i t hget
    show (p.tasks ++ [_])[i]? = some t
    rw [List.getElem?_append_left (List.getElem?_eq_some_iff.1 hget).1]
    exact hget

/-- Forwarding a message comes down to changes: a task is told something, or another one is launched
and awaited. -/
lemma changes_forward (hget : p.tasks[i]? = some t) {id : DefinitionId} {m : M}
    {next : Except EngineError String → Script σ M EngineError (Outcome t.definition.states)}
    (hrest : t.rest = .request (.forward id m) next) :
    Changes allowed p (p.forward i t id m next) := by
  have htold : ∀ answer awaited,
      Changes allowed p (p.put i { t with rest := next answer, awaited }) :=
    fun answer awaited => .single (.told hget hrest)
  have hforwards : t.rest.Forwards := by
    rw [hrest]
    trivial
  unfold Pool.forward
  split
  · split
    · exact htold _ none
    · exact .refl
  · split
    · exact htold _ t.awaited
    · split
      · exact htold _ t.awaited
      · next d hfind =>
        split
        -- The message becomes a task, and then the one that has forwarded it waits.
        · next launched hlaunch =>
          have hasked : p.Asked allowed d :=
            .inr ⟨List.mem_of_find?_eq_some hfind, i, t, hget, hforwards⟩
          obtain ⟨hchange, hkept⟩ := change_of_launch hasked hlaunch
          exact .tail (.single hchange) (.marked (hkept i t hget))
        · exact htold _ t.awaited

/-- Every event comes down to changes, if only dispatches of some definitions are started. -/
lemma changes_step {event : Event σ M}
    (hevent : ∀ job, event = .start job → allowed job.definition) :
    Changes allowed p (p.step event) := by
  cases event with
  | start job =>
    simp only [Pool.step]
    cases hlaunch : p.launch job with
    | error e => exact .refl
    | ok launched => exact .single (change_of_launch (.inl (hevent job rfl)) hlaunch).1
  | turn i =>
    show Changes allowed p (p.turn i)
    cases hget : p.tasks[i]? with
    | none =>
      simp only [Pool.turn, hget]
      exact .refl
    | some t =>
      by_cases hforwards : t.rest.Forwards
      · obtain ⟨id, m, next, hrest⟩ := Script.eq_of_forwards hforwards
        rw [turn_of_forward hget hrest]
        exact changes_forward hget hrest
      · rw [turn_of_not_forwards hget hforwards]
        have hown : t.scope.services.OfSession := t.own
        exact .single (.moved hget (Script.turn_moved hown hforwards (t.delivery p.engine)))
  | cancel i =>
    simp only [Pool.step]
    split
    · exact .refl
    · next t hget => exact .single (.marked hget)
  | tick now => exact .single .ticked
  | drain => exact .single .drained

/-- What every change keeps is kept by every run. -/
lemma run_keeps (allowed : Definition σ M → Prop) {I : Pool σ M → Prop} {events : List (Event σ M)}
    (hchange : ∀ p p', Change allowed p p' → I p → I p')
    (hevents : ∀ job, .start job ∈ events → allowed job.definition) (hp : I p) :
    I (p.run events) := by
  have hchanges : ∀ {q q'}, Changes allowed q q' → I q → I q' := by
    intro q q' h hq
    induction h with
    | refl => exact hq
    | tail _ hlast ih => exact hchange _ _ hlast ih
  unfold Pool.run
  induction events generalizing p with
  | nil => exact hp
  | cons event rest ih =>
    have hstep : Changes allowed p (p.step event) := by
      apply changes_step
      rintro job rfl
      exact hevents job List.mem_cons_self
    apply ih
    · intro job hmem
      exact hevents job (List.mem_cons_of_mem event hmem)
    · exact hchanges hstep hp

end Pool

end Saga
