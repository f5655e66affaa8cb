import Saga.Pipeline
import Saga.Proofs.Blueprint.Compile
import Saga.Proofs.Interleaving.Changes
import Saga.Proofs.Interleaving.Trail

/-!
# The history of an instance

Dispatches that take turns may find a row, act for a while, and commit after others have committed.
Still the rows do not tell: whatever the order of the turns, the tasks that commit a write to a row
form one trail (`Pool.history_linear`). The store must count versions, and no action may stage a row
or commit for itself.

The proof follows the pool change by change (`Pool.Sound`). What carries it is that every task is in
one of the phases of a dispatch, each of which is about rows that the task still recalls.
-/

namespace Saga

variable {σ M : Type}

/-- Whether no action of a definition stages a row or commits the session of its own delivery. -/
def Definition.Tame (d : Definition σ M) : Prop :=
  ∀ rule ∈ d.rules, ∀ run ∈ rule.actions, ∀ m, (run m).Only Request.KeepsRows

variable [Message M]

/-- Whether no action of a kept blueprint stages a row or commits. -/
def Registry.Tame (r : Registry σ M) : Prop :=
  ∀ key cached, r.lookup key = some cached → ∀ m, cached.blueprint.Only Request.KeepsRows m

namespace Task

/-- Whether a task is in one of the phases of its dispatch. -/
def Sound (t : Task σ M) (store : Store) : Prop :=
  ∃ phase, t.toErrand.Follows t.toErrand.Ends phase t.rest ∧
    t.toErrand.Carries store t.session phase

/-- A task that is certain to end with a write has committed. -/
lemma Sound.committed_of_writes {t : Task σ M} {store : Store} (h : t.Sound store)
    {outcome : Outcome t.definition.states} (hverdict : t.verdict? = some (.ok outcome))
    (hwrites : outcome.writes = true) : t.session.committed = true := by
  obtain ⟨phase, hfollows, hcarries⟩ := h
  have hends := hfollows.ends hverdict
  cases phase with
  | looking => exact hends.elim
  | acting key found => exact absurd (hwrites.symm.trans hends) nofun
  | holding key found write outcome' => exact hends.elim
  | landed outcome' => exact hcarries

end Task

namespace Pool

/-- What is true of a pool whatever has happened in it: `start` is the store that it began with. -/
structure Sound (start : Store) (p : Pool σ M) : Prop where
  optimistic : p.engine.store.options.optimisticConcurrency = true
  registry : p.engine.registry.Tame
  router : ∀ d ∈ p.router.definitions, d.Tame
  tasks : ∀ (i : Nat) (t : Task σ M), p.tasks[i]? = some t → t.Sound p.engine.store
  committed : ∀ (i : Nat) (t : Task σ M), p.tasks[i]? = some t →
    (t.session.committed = true ↔ i ∈ p.commits.map Commit.task)
  inside : ∀ i ∈ p.commits.map Commit.task, i < p.tasks.length
  nodup : (p.commits.map Commit.task).Nodup
  single : ∀ c ∈ p.commits, ∃ write, c.writes = [write]
  trails : ∀ key, Trail p.tasks key (start.get? key) (p.writers key) (p.engine.store.get? key)

variable {start : Store} {p : Pool σ M}

/-- Changing a task keeps what the tasks of a trail have done if it keeps what that task has. -/
lemma keep_set {tasks : List (Task σ M)} {i : Nat} {t t' : Task σ M} (hget : tasks[i]? = some t)
    (hadvances : ∀ key before row, t.Advances key before row → t'.Advances key before row)
    (j : Nat) (u : Task σ M) (hu : tasks[j]? = some u) :
    ∃ u' : Task σ M, (tasks.set i t')[j]? = some u' ∧
      ∀ key before row, u.Advances key before row → u'.Advances key before row := by
  by_cases hij : i = j
  · subst hij
    cases hget.symm.trans hu
    refine ⟨t', ?_, hadvances⟩
    rw [List.getElem?_set_self (List.getElem?_eq_some_iff.1 hget).1]
  · refine ⟨u, ?_, fun _ _ _ h => h⟩
    rw [List.getElem?_set_ne hij]
    exact hu

/-- A pool stays sound when one task changes and no row does. -/
lemma Sound.replace (h : p.Sound start) {i : Nat} {t t' : Task σ M} (hget : p.tasks[i]? = some t)
    (hsound : t'.Sound p.engine.store) (hcommitted : t'.session.committed = t.session.committed)
    (hadvances : ∀ key before row, t.Advances key before row → t'.Advances key before row) :
    (p.put i t').Sound start where
  optimistic := h.optimistic
  registry := h.registry
  router := h.router
  tasks := by
    intro j u hu
    rcases getElem?_set_cases hu with ⟨rfl, rfl⟩ | ⟨-, hu⟩
    · exact hsound
    · exact h.tasks j u hu
  committed := by
    intro j u hu
    rcases getElem?_set_cases hu with ⟨rfl, rfl⟩ | ⟨-, hu⟩
    · rw [hcommitted]
      exact h.committed j t hget
    · exact h.committed j u hu
  inside := by
    intro j hj
    have hlength : (p.tasks.set i t').length = p.tasks.length := List.length_set
    show j < (p.tasks.set i t').length
    rw [hlength]
    exact h.inside j hj
  nodup := h.nodup
  single := h.single
  trails key := (h.trails key).mono (keep_set hget hadvances)

/-- A pool stays sound when its engine changes and no row does. -/
lemma Sound.onEngine (h : p.Sound start) {engine : Engine σ M}
    (hoptions : engine.store.options = p.engine.store.options)
    (htable : engine.store.table = p.engine.store.table) (hregistry : engine.registry.Tame) :
    Sound start { p with engine } := by
  have hrow : ∀ key, engine.store.get? key = p.engine.store.get? key := by
    intro key
    unfold Store.get?
    rw [htable]
  have hrecalls : ∀ r, p.engine.store.Recalls r → engine.store.Recalls r := by
    rintro r ⟨row, hget, hversion⟩
    exact ⟨row, (hrow r.key).trans hget, hversion⟩
  constructor
  case optimistic =>
    exact (congrArg StoreOptions.optimisticConcurrency hoptions).trans h.optimistic
  case registry => exact hregistry
  case router => exact h.router
  case tasks =>
    intro i t hget
    obtain ⟨phase, hfollows, hcarries⟩ := h.tasks i t hget
    exact ⟨phase, hfollows, hcarries.mono hrecalls⟩
  case committed => exact h.committed
  case inside => exact h.inside
  case nodup => exact h.nodup
  case single => exact h.single
  case trails =>
    intro key
    have htrail := h.trails key
    rw [← hrow key] at htrail
    exact htrail

/-- A pool stays sound when a task joins it that has not committed. -/
lemma Sound.push (h : p.Sound start) {t : Task σ M} (hsound : t.Sound p.engine.store)
    (hopen : t.session.committed = false) : Sound start { p with tasks := p.tasks ++ [t] } := by
  constructor
  case optimistic => exact h.optimistic
  case registry => exact h.registry
  case router => exact h.router
  case tasks =>
    intro j u hu
    rcases getElem?_concat_cases hu with hu | ⟨-, rfl⟩
    · exact h.tasks j u hu
    · exact hsound
  case committed =>
    intro j u hu
    rcases getElem?_concat_cases hu with hu | ⟨rfl, rfl⟩
    · exact h.committed j u hu
    · rw [hopen]
      refine ⟨nofun, ?_⟩
      intro hmem
      exact absurd (h.inside _ hmem) (Nat.lt_irrefl _)
  case inside =>
    intro j hj
    have hlength := h.inside j hj
    rw [List.length_append]
    omega
  case nodup => exact h.nodup
  case single => exact h.single
  case trails =>
    intro key
    refine (h.trails key).mono ?_
    intro j u hu
    refine ⟨u, ?_, fun _ _ _ hadvances => hadvances⟩
    rw [List.getElem?_append_left (List.getElem?_eq_some_iff.1 hu).1]
    exact hu

omit [Message M] in
/-- Who has written to a row when one more task has committed a write. -/
lemma writers_commit (p : Pool σ M) (engine : Engine σ M) (tasks : List (Task σ M)) (i : Nat)
    (write : StagedWrite) (key : InstanceKey) :
    Pool.writers { p with engine, tasks, commits := p.commits ++ [⟨i, [write]⟩] } key =
      p.writers key ++ if write.record.key = key then [i] else [] := by
  unfold writers
  rw [List.filter_append, List.map_append]
  split
  · next hkey => simp [hkey]
  · next hkey => simp [hkey]

/-- A pool stays sound when a task commits its write and one row moves on. -/
lemma Sound.land (h : p.Sound start) {i : Nat} {t t' : Task σ M} (hget : p.tasks[i]? = some t)
    (hopen : t.session.committed = false) (hclosed : t'.session.committed = true)
    {engine : Engine σ M} {key : InstanceKey} {write : StagedWrite} {row : StoredInstance}
    {messages : List Envelope} (hwrite : write.record.key = key) (hrow : row.record.key = key)
    (hlanded : Store.Landed p.engine.store engine.store row messages)
    (hmoved : ∀ old, p.engine.store.get? key = some old →
      old.record.version < row.record.version)
    (hsound : t'.Sound engine.store)
    (hadvances : t'.Advances key (p.engine.store.get? key) row) (hregistry : engine.registry.Tame) :
    Sound start { p with
      engine
      tasks := p.tasks.set i t'
      commits := p.commits ++ [⟨i, [write]⟩] } := by
  have hlength : i < p.tasks.length := (List.getElem?_eq_some_iff.1 hget).1
  have hfresh : i ∉ p.commits.map Commit.task := by
    rw [← h.committed i t hget, hopen]
    nofun
  have hrecalls : ∀ r, p.engine.store.Recalls r → engine.store.Recalls r := by
    intro r hr
    refine hr.of_landed hlanded ?_
    rw [hrow]
    exact hmoved
  -- The task has no certain outcome with a write before its commit, so it has none to keep.
  have hnothing : ∀ key before row, t.Advances key before row → t'.Advances key before row := by
    rintro key' before row' ⟨outcome, hverdict, -, hmoves⟩
    have hcommitted := (h.tasks i t hget).committed_of_writes hverdict hmoves.writes
    exact absurd (hopen.symm.trans hcommitted) nofun
  constructor
  case optimistic =>
    exact (congrArg StoreOptions.optimisticConcurrency hlanded.options).trans h.optimistic
  case registry => exact hregistry
  case router => exact h.router
  case tasks =>
    intro j u hu
    rcases getElem?_set_cases hu with ⟨rfl, rfl⟩ | ⟨-, hu⟩
    · exact hsound
    · obtain ⟨phase, hfollows, hcarries⟩ := h.tasks j u hu
      exact ⟨phase, hfollows, hcarries.mono hrecalls⟩
  case committed =>
    intro j u hu
    rw [List.map_append, List.mem_append]
    rcases getElem?_set_cases hu with ⟨rfl, rfl⟩ | ⟨hij, hu⟩
    · simp [hclosed]
    · rw [h.committed j u hu]
      simp [hij]
  case inside =>
    intro j hj
    rw [List.length_set]
    rw [List.map_append, List.mem_append] at hj
    rcases hj with hj | hj
    · exact h.inside j hj
    · cases List.mem_singleton.1 hj
      exact hlength
  case nodup =>
    rw [List.map_append, List.nodup_append]
    refine ⟨h.nodup, by simp, ?_⟩
    intro j hj b hb heq
    cases List.mem_singleton.1 hb
    have hij : j = i := heq
    exact hfresh (hij ▸ hj)
  case single =>
    intro c hc
    rcases List.mem_append.1 hc with hc | hc
    · exact h.single c hc
    · cases List.mem_singleton.1 hc
      exact ⟨write, rfl⟩
  case trails =>
    intro key'
    have htrail := (h.trails key').mono (keep_set hget hnothing)
    rw [writers_commit]
    split
    · next hkey =>
      subst hwrite hkey
      have hhere : engine.store.get? write.record.key = some row := by
        rw [← hrow]
        exact hlanded.here
      rw [hhere]
      exact .snoc htrail (List.getElem?_set_self hlength) hadvances
    · next hkey =>
      have helsewhere : engine.store.get? key' = p.engine.store.get? key' := by
        refine hlanded.elsewhere key' ?_
        rw [hrow, ← hwrite]
        exact Ne.symm hkey
      rw [helsewhere, List.append_nil]
      exact htrail

/-- A pool stays sound when a task makes a move of its own. -/
lemma Sound.moved (h : p.Sound start) {i : Nat} {t : Task σ M} (hget : p.tasks[i]? = some t)
    {rest : Script σ M EngineError (Outcome t.definition.states)} {d : Delivery σ M}
    (hmoved : Script.Moved (t.delivery p.engine) t.rest rest d) :
    Sound start { p with
      engine := d.toEngine
      tasks := p.tasks.set i { t with session := d.session, cancelled := d.cancelled, rest }
      commits := p.commits ++
        if d.session.committed && !t.session.committed then [⟨i, t.session.writes⟩] else [] } := by
  obtain ⟨phase, hfollows, hcarries⟩ := h.tasks i t hget
  have hregistry : d.registry = p.engine.registry := hmoved.registry
  have hadvances : ∀ key before row, t.Advances key before row →
      Task.Advances { t with session := d.session, cancelled := d.cancelled, rest } key before
        row := by
    rintro key before row ⟨outcome, hverdict, hmoves⟩
    exact ⟨outcome, hmoved.settled hverdict, hmoves⟩
  cases t.toErrand.moved h.optimistic hmoved hfollows hcarries with
  | @quiet phase' hfollows' hcarries' hstore hcommitted =>
    have hengine : Sound start { p with engine := d.toEngine } :=
      h.onEngine (congrArg Store.options hstore) (congrArg Store.table hstore)
        (hregistry ▸ h.registry)
    have hsame : d.session.committed = t.session.committed := hcommitted
    simp only [hsame, Bool.and_not_self, Bool.false_eq_true, if_false, List.append_nil]
    exact hengine.replace hget ⟨phase', hfollows', hcarries'⟩ hcommitted hadvances
  | @committed key write outcome row messages hfollows' hopen hclosed hwrites hwrite hconcerns hrow
      hlanded hmoves hadvanced =>
    have hopen' : t.session.committed = false := hopen
    have hwrites' : t.session.writes = [write] := hwrites
    let t' : Task σ M := { t with session := d.session, cancelled := d.cancelled, rest }
    have hsound : t'.Sound d.store := ⟨.landed outcome, hfollows', hclosed⟩
    have hadvances' : t'.Advances key (p.engine.store.get? key) row :=
      ⟨outcome, hfollows'.settled, hconcerns, hmoves⟩
    simp only [hopen', hclosed, Bool.not_false, Bool.and_self, if_true, hwrites']
    exact h.land hget hopen' hclosed hwrite hrow hlanded hadvanced hsound hadvances'
      (hregistry ▸ h.registry)

/-- A task that is answered what it has forwarded stays in its phase. -/
lemma Sound.told (h : p.Sound start) {i : Nat} {t : Task σ M} (hget : p.tasks[i]? = some t)
    {id : DefinitionId} {m : M}
    {next : Except EngineError String → Script σ M EngineError (Outcome t.definition.states)}
    (hrest : t.rest = .request (.forward id m) next) (answer : Except EngineError String)
    (awaited : Option Nat) : (p.put i { t with rest := next answer, awaited }).Sound start := by
  obtain ⟨phase, hfollows, hcarries⟩ := h.tasks i t hget
  refine h.replace hget ⟨phase, ?_, hcarries⟩ rfl ?_
  · rw [hrest] at hfollows
    obtain ⟨phase', hmoves, hnext⟩ := hfollows answer trivial
    cases hmoves with
    | failed _ => exact hnext
    | harmless _ _ _ => exact hnext
  · rintro key before row ⟨outcome, hverdict, -⟩
    have hnone : t.rest.settled? = none := Script.settled_of_forwards (hrest ▸ trivial)
    exact absurd (hverdict.symm.trans hnone) nofun

/-- Every change keeps a pool sound to which only tame definitions come. -/
lemma Sound.change {p' : Pool σ M} (h : p.Sound start) (hchange : Change Definition.Tame p p') :
    p'.Sound start := by
  cases hchange with
  | ticked => exact h.onEngine rfl rfl h.registry
  | drained => exact h.onEngine rfl rfl h.registry
  | @launched job registry log b hasked horigin =>
    have hjob : job.definition.Tame := by
      rcases hasked with hstarted | ⟨hmem, -⟩
      · exact hstarted
      · exact h.router _ hmem
    obtain ⟨hb, hregistry⟩ := Registry.Only.of_origin h.registry hjob horigin
    have hengine : Sound start { p with engine := { p.engine with registry, log } } :=
      h.onEngine rfl rfl hregistry
    exact hengine.push ⟨.looking, Errand.script_follows (hb job.message), rfl, rfl⟩ rfl
  | @marked i t cancelled awaited hget =>
    obtain ⟨phase, hfollows, hcarries⟩ := h.tasks i t hget
    exact h.replace hget ⟨phase, hfollows, hcarries⟩ rfl fun _ _ _ hadvances => hadvances
  | told hget hrest => exact h.told hget hrest _ _
  | moved hget hmoved => exact h.moved hget hmoved

/-- Every list of events leaves a pool sound. -/
lemma Sound.run (h : p.Sound start) {events : List (Event σ M)}
    (hevents : ∀ job, .start job ∈ events → job.definition.Tame) : (p.run events).Sound start :=
  run_keeps Definition.Tame (fun _ _ hchange hp => hp.change hchange) hevents h

/-- A pool without tasks is sound. -/
lemma sound_start {engine : Engine σ M} {router : Router σ M}
    (hoptimistic : engine.store.options.optimisticConcurrency = true)
    (hregistry : engine.registry.Tame) (hrouter : ∀ d ∈ router.definitions, d.Tame) :
    Sound engine.store { engine, router } where
  optimistic := hoptimistic
  registry := hregistry
  router := hrouter
  tasks := nofun
  committed := nofun
  inside := nofun
  nodup := .nil
  single := nofun
  trails _ := .nil

/-- A task is among the writers of a row once its result is certain and writes. -/
lemma Sound.writes_iff (h : p.Sound start) {i : Nat} {t : Task σ M} (hget : p.tasks[i]? = some t) :
    (∃ outcome, t.verdict? = some (.ok outcome) ∧ outcome.writes = true) ↔
      ∃ key, i ∈ p.writers key := by
  constructor
  · rintro ⟨outcome, hverdict, hwrites⟩
    have hcommitted := (h.tasks i t hget).committed_of_writes hverdict hwrites
    obtain ⟨c, hc, rfl⟩ := List.mem_map.1 ((h.committed i t hget).1 hcommitted)
    obtain ⟨write, hwrite⟩ := h.single c hc
    refine ⟨write.record.key, List.mem_map_of_mem (List.mem_filter.2 ⟨hc, ?_⟩)⟩
    simp [hwrite]
  · rintro ⟨key, hmem⟩
    obtain ⟨n, hn⟩ := List.getElem?_of_mem hmem
    obtain ⟨t', outcome, hget', hverdict, -, hwrites, -⟩ := (h.trails key).task hn
    cases hget.symm.trans hget'
    exact ⟨outcome, hverdict, hwrites⟩

/-- Whatever the order of their turns, the tasks that commit a write to a row form one trail from
the row that was there at first to the one that is there in the end. No task commits twice, the
first one starts the instance if there was none, no other does, and the version counts them. They
are the tasks whose result is certain and writes. -/
theorem history_linear (engine : Engine σ M) (router : Router σ M) (events : List (Event σ M))
    (hoptimistic : engine.store.options.optimisticConcurrency = true)
    (hregistry : engine.registry.Tame) (hrouter : ∀ d ∈ router.definitions, d.Tame)
    (hevents : ∀ job, .start job ∈ events → job.definition.Tame) :
    let p := Pool.run { engine, router } events
    (∀ key,
      Trail p.tasks key (engine.store.get? key) (p.writers key) (p.engine.store.get? key) ∧
        (p.writers key).Nodup ∧
        (∀ n i, (p.writers key)[n]? = some i → ∃ t outcome,
          p.tasks[i]? = some t ∧ t.verdict? = some (.ok outcome) ∧
            (outcome.IsStarted ↔ n = 0 ∧ engine.store.get? key = none)) ∧
        ((p.engine.store.get? key).map fun r => r.record.version).getD 0 =
          ((engine.store.get? key).map fun r => r.record.version).getD 0 +
            (p.writers key).length) ∧
      ∀ i t, p.tasks[i]? = some t →
        ((∃ outcome, t.verdict? = some (.ok outcome) ∧ outcome.writes = true) ↔
          ∃ key, i ∈ p.writers key) := by
  intro p
  have hsound : p.Sound engine.store :=
    (sound_start hoptimistic hregistry hrouter).run hevents
  refine ⟨?_, ?_⟩
  · intro key
    have htrail := hsound.trails key
    refine ⟨htrail, ?_, ?_, htrail.version⟩
    · exact hsound.nodup.sublist (List.filter_sublist.map Commit.task)
    · intro n i hi
      obtain ⟨t, outcome, hget, hverdict, -, -, hstarted⟩ := htrail.task hi
      exact ⟨t, outcome, hget, hverdict, hstarted⟩
  · intro i t hget
    exact hsound.writes_iff hget

end Pool

namespace Overtaking
open Pipeline

/-- A workflow that forwards a heartbeat to itself before it takes note of a completion. -/
def definition : Definition Unit JobMessage where
  id := ⟨"overtaking", 0⟩
  states := stages
  rules := [
    .start Event.start.type stages.processing [],
    .on stages.processing Event.heartbeat.type [],
    .on stages.processing Event.complete.type [
      .action fun m =>
        (Script.attempt (.forward ⟨"overtaking", 0⟩ ⟨.heartbeat, m.id⟩)).bind fun _ => .done (),
      .moveTo stages.completed],
    .on stages.processing Event.fail.type [.moveTo stages.failed],
    .correlate Event.start.type JobMessage.id,
    .correlate Event.heartbeat.type JobMessage.id,
    .correlate Event.complete.type JobMessage.id,
    .correlate Event.fail.type JobMessage.id]

/-- An engine without rows. -/
def engine : Engine Unit JobMessage where
  app := ()

/-- A router that knows the workflow. -/
def router : Router Unit JobMessage where
  definitions := [definition]

/-- The dispatch of a message about the job 7. -/
def job (event : Event) : Job Unit JobMessage where
  definition := definition
  options := {}
  message := ⟨event, "7"⟩
  services := .ofSession []
  own := (Services.complete_ofSession []).ofSession
  depth := 3

/-- A dozen turns for each of some tasks. -/
def turns (tasks : List Nat) : List (Pool.Event Unit JobMessage) :=
  (List.replicate 12 (tasks.map .turn)).flatten

/-- Two tasks race to start the job. A third is to complete it, but is overtaken by the heartbeat
that it has forwarded; so the fifth, which fails the job, finds it running. -/
def events : List (Pool.Event Unit JobMessage) :=
  .start (job .start) :: .start (job .start) :: (turns [0, 1] ++
    .start (job .complete) :: (turns [2] ++ turns [3] ++ turns [2] ++
      .start (job .fail) :: turns [4]))

/-- The actions of the workflow stage no rows and commit nothing. -/
lemma tame : definition.Tame := by
  refine List.forall_mem_cons.2 ⟨nofun, List.forall_mem_cons.2 ⟨nofun, ?_⟩⟩
  refine List.forall_mem_cons.2 ⟨?complete, List.forall_mem_cons.2 ⟨nofun, ?selectors⟩⟩
  case complete =>
    refine List.forall_mem_cons.2 ⟨?_, nofun⟩
    intro m
    exact ⟨trivial, fun _ => trivial⟩
  case selectors =>
    refine List.forall_mem_cons.2 ⟨nofun, List.forall_mem_cons.2 ⟨nofun, ?_⟩⟩
    exact List.forall_mem_cons.2 ⟨nofun, List.forall_mem_cons.2 ⟨nofun, nofun⟩⟩

/-- Whatever is started is tame. -/
lemma tame_of_start (j : Job Unit JobMessage) (h : .start j ∈ events) : j.definition.Tame := by
  have hturns : ∀ tasks, .start j ∉ turns tasks := by
    intro tasks hmem
    obtain ⟨round, hround, hmem⟩ := List.mem_flatten.1 hmem
    rw [List.eq_of_mem_replicate hround] at hmem
    obtain ⟨i, -, heq⟩ := List.mem_map.1 hmem
    cases heq
  simp only [events, List.mem_cons, List.mem_append, hturns, false_or, or_false,
    Pool.Event.start.injEq] at h
  rcases h with rfl | rfl | rfl | rfl <;> exact tame

/-- The job goes from its start to its failure over a heartbeat: the task that lost the race and the
one that was overtaken are not on the way. -/
theorem overtaking_linear :
    let p := Pool.run { engine, router } events
    let key : InstanceKey := ⟨"7", "overtaking"⟩
    engine.store.options.optimisticConcurrency = true ∧ engine.registry.Tame ∧
      (∀ d ∈ router.definitions, d.Tame) ∧ (∀ j, .start j ∈ events → j.definition.Tame) ∧
      Trail p.tasks key none [0, 3, 4] (p.engine.store.get? key) := by
  have hregistry : engine.registry.Tame := nofun
  have hrouter : ∀ d ∈ router.definitions, d.Tame := List.forall_mem_cons.2 ⟨tame, nofun⟩
  have hwriters : (Pool.run { engine, router } events).writers ⟨"7", "overtaking"⟩ = [0, 3, 4] := by
    decide +kernel
  obtain ⟨hhistory, -⟩ :=
    Pool.history_linear engine router events rfl hregistry hrouter tame_of_start
  obtain ⟨htrail, -⟩ := hhistory ⟨"7", "overtaking"⟩
  rw [hwriters] at htrail
  exact ⟨rfl, hregistry, hrouter, tame_of_start, htrail⟩

end Overtaking

end Saga
