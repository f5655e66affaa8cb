import Saga.Pipeline
import Saga.Proofs.Interleaving.Settings
import Saga.Proofs.Storage.Admission

/-!
# Rejected commits

A dispatch commits one write, which it has earned from what it found. The row that it found is still
there when it commits, so the store can refuse the write for two causes only: the row is at another
version by now, or it is there though none was found (`Store.Rejects`). Both are retryable, and both
take another task that has committed a write to the row since the look-up
(`Pool.rejections_retryable`).
-/

namespace Saga

variable {σ M : Type}

/-- The causes for which a store refuses a write that a dispatch has earned. -/
inductive Store.Rejects (s : Store) : StagedWrite → EngineError → Prop where
  | conflict {record row} : s.options.optimisticConcurrency = true →
    s.get? record.key = some row → row.record.version ≠ record.version →
    Rejects s (.update record) (.conflict record.key record.version row.record.version)
  | instanceExists {record row} : s.get? record.key = some row →
    Rejects s (.add record) (.instanceExists record.key)

namespace Store

variable {s : Store} {write : StagedWrite}

/-- What a store rejects a write for may be retried. -/
lemma Rejects.isRetryable {error : EngineError} (h : s.Rejects write error) :
    error.isRetryable = true := by
  cases h <;> rfl

/-- A batch of one write is refused for the cause for which the write is. -/
lemma judge_of_commit_error {now : Timestamp} {messages : List Envelope} {error : StoreError}
    (h : s.commit now [write] messages = .error error) :
    write.judge s.options (s.table.version? write.record.key) = .error error := by
  rw [commit_eq_writeAll, List.map_singleton, InstanceTable.writeAll_cons,
    InstanceTable.write] at h
  cases hjudge : write.judge s.options (s.table.version? write.record.key) with
  | error e =>
    rw [hjudge] at h
    cases h
    rfl
  | ok version =>
    rw [hjudge] at h
    cases h

end Store

/-- The commit of an open session fails because it is cancelled, or as the store says. -/
lemma Session.commit_error {session : Session} {store : Store} {cancelled : Bool} {now : Timestamp}
    {error : EngineError} (hopen : session.committed = false)
    (h : session.commit store cancelled now = .error error) :
    cancelled = true ∧ error = .cancelled ∨
      cancelled = false ∧ ∃ cause, store.commit now session.writes session.messages = .error cause ∧
        error = cause.toEngine := by
  cases cancelled with
  | true =>
    cases h
    exact .inl ⟨rfl, rfl⟩
  | false =>
    right
    refine ⟨rfl, ?_⟩
    simp only [Session.commit, checkLive, Session.checkOpen, hopen] at h
    cases hstore : store.commit now session.writes session.messages with
    | ok after =>
      rw [hstore] at h
      cases h
    | error cause =>
      rw [hstore] at h
      cases h
      exact ⟨cause, rfl, rfl⟩

variable [Message M]

namespace Errand

variable {e : Errand σ M} {key : InstanceKey} {found : Option InstanceRecord} {write : StagedWrite}
  {outcome : Outcome e.definition.states}

/-- A row that a dispatch updates is there, since it was found and rows stay. -/
lemma Earned.row_of_update {s : Store} {record : InstanceRecord}
    (h : e.Earned key found (.update record) outcome) (hknows : s.Knows key found) :
    ∃ row, s.get? record.key = some row := by
  cases h with
  | transferred _ _ =>
    obtain ⟨-, row, hrow, -⟩ := hknows
    exact ⟨row, hrow⟩
  | kept _ _ _ =>
    obtain ⟨-, row, hrow, -⟩ := hknows
    exact ⟨row, hrow⟩

/-- The store refuses what a dispatch has earned for one of the two causes only. -/
lemma Earned.rejected {s : Store} {now : Timestamp} {messages : List Envelope} {cause : StoreError}
    (h : e.Earned key found write outcome) (hknows : s.Knows key found)
    (hcommit : s.commit now [write] messages = .error cause) : s.Rejects write cause.toEngine := by
  have hjudge := Store.judge_of_commit_error hcommit
  cases write with
  | add record =>
    simp only [StagedWrite.judge, StagedWrite.record] at hjudge
    split at hjudge
    · next version hversion =>
      obtain ⟨row, hrow, -⟩ := Option.map_eq_some_iff.1 hversion
      cases hjudge
      exact .instanceExists hrow
    · cases hjudge
  | update record =>
    obtain ⟨row, hrow⟩ := h.row_of_update hknows
    have hversion : s.table.version? record.key = some row.record.version := by
      rw [InstanceTable.version?, show s.table.get? record.key = some row from hrow]
      rfl
    simp only [StagedWrite.judge, StagedWrite.record, hversion] at hjudge
    split at hjudge
    · next hchecked =>
      obtain ⟨hoptimistic, hother⟩ := Bool.and_eq_true_iff.1 hchecked
      cases hjudge
      exact .conflict hoptimistic hrow (bne_iff_ne.1 hother)
    · cases hjudge

/-- A dispatch is granted a commit only while it holds what it has earned. -/
lemma Moves.of_commit {phase phase' : Phase e.definition.states}
    (h : e.Moves phase .commit (.ok ()) phase') :
    ∃ key found write outcome, phase = .holding key found write outcome := by
  cases h with
  | harmless _ hr _ => exact hr.elim
  | committed => exact ⟨_, _, _, _, rfl⟩

end Errand

/-- Whether the next turn of a script is to commit. -/
def Script.commits {ε α : Type} : Script σ M ε α → Bool
  | .request .commit _ => true
  | _ => false

omit [Message M] in
/-- A script that is about to commit has a commit as its next request. -/
lemma Script.eq_of_commits {ε α : Type} {rest : Script σ M ε α} (h : rest.commits = true) :
    ∃ next, rest = .request .commit next := by
  unfold Script.commits at h
  split at h
  · next next => exact ⟨next, rfl⟩
  · cases h

namespace Task

variable {t : Task σ M} {engine : Engine σ M} {key : InstanceKey} {found : Option InstanceRecord}
  {write : StagedWrite} {outcome : Outcome t.definition.states}

/-- A task that still seeks its row is not about to commit. -/
lemma Seeks.not_commits (h : t.Seeks) : t.rest.commits = false := by
  obtain ⟨front, known, hrest, hheeds, -⟩ := h
  rw [hrest]
  cases front with
  | request r next =>
    obtain ⟨hr, -⟩ := hheeds
    cases r with
    | commit => exact hr.elim
    | _ => rfl
  | _ => rfl

/-- What is true of a task that is about to commit. -/
structure Holds (t : Task σ M) (store : Store) (key : InstanceKey) (found : Option InstanceRecord)
    (write : StagedWrite) (outcome : Outcome t.definition.states) : Prop where
  registered : t.services.contains .unitOfWork = true
  writes : t.session.writes = [write]
  isOpen : t.session.committed = false
  knows : store.Knows key found
  earned : t.toErrand.Earned key found write outcome

/-- The commit of a task goes to the unit of work of its session. -/
lemma Holds.perform {store : Store} (h : t.Holds store key found write outcome)
    (d : Delivery σ M) : t.scope.perform .commit d = Delivery.commit d := by
  obtain ⟨unit, hunit⟩ := Option.isSome_iff_exists.1 h.registered
  have hcommit : t.scope.services.get? .unitOfWork = some (Delivery.commit : Run σ M Unit) := by
    rw [← t.own.unitOfWork unit hunit]
    exact hunit
  exact Scope.bind_require_of_some hcommit (fun p => p) d

/-- The commit is refused because the task was cancelled, or by the store for one of the two causes.
-/
lemma Holds.rejected (h : t.Holds engine.store key found write outcome) {error : EngineError}
    {d : Delivery σ M} (hcommit : t.scope.perform .commit (t.delivery engine) = .error error d) :
    t.cancelled = true ∧ error = .cancelled ∨
      t.cancelled = false ∧ engine.store.Rejects write error := by
  rw [h.perform, Delivery.commit_apply] at hcommit
  split at hcommit
  · cases hcommit
  · next hsession =>
    cases hcommit
    rcases Session.commit_error h.isOpen hsession with hcancelled | ⟨hlive, cause, hstore, rfl⟩
    · exact .inl hcancelled
    · have hbatch : engine.store.commit engine.now t.session.writes t.session.messages =
        .error cause := hstore
      rw [h.writes] at hbatch
      exact .inr ⟨hlive, h.earned.rejected h.knows hbatch⟩

/-- The commit of a live task is taken if what it has found is what stands under the key. -/
lemma Holds.taken (h : t.Holds engine.store key found write outcome)
    (hfound : found = (engine.store.get? key).map StoredInstance.record)
    (hlive : t.cancelled = false) :
    ∃ d, t.scope.perform .commit (t.delivery engine) = .ok () d := by
  obtain ⟨after, hafter⟩ := h.earned.commits hfound engine.now t.session.messages
  rw [← h.writes] at hafter
  let d := t.delivery engine
  have hsession : d.session.commit d.store d.cancelled d.now = .ok (.closed, after) :=
    Session.commit_eq_ok_iff.2 ⟨hlive, h.isOpen, rfl, hafter⟩
  rw [h.perform, Delivery.commit_apply, hsession]
  exact ⟨_, rfl⟩

end Task

namespace Pool

variable {p : Pool σ M} {i : Nat} {t : Task σ M} {key : InstanceKey}

/-- A task that is about to commit holds a write that it has earned from what it has found. -/
lemma Informed.holds {store : Store} {q : Option InstanceRecord → Prop}
    (h : Informed t store key q) (hcommits : t.rest.commits = true) :
    ∃ found write outcome, t.Holds store key found write outcome ∧ q found := by
  obtain ⟨next, hrest⟩ := Script.eq_of_commits hcommits
  rcases h with ⟨e, hfailed⟩ | ⟨hregistered, phase, hfollows, hcarries, hfound⟩
  · cases hrest.symm.trans hfailed
  · rw [hrest] at hfollows
    obtain ⟨phase', hmoves, -⟩ := hfollows (.ok ()) trivial
    obtain ⟨key', found, write, outcome, rfl⟩ := hmoves.of_commit
    obtain ⟨rfl, hq⟩ := hfound
    obtain ⟨hwrites, hopen, -, hknows, hearned⟩ := hcarries
    exact ⟨found, write, outcome, ⟨hregistered, hwrites, hopen, hknows, hearned⟩, hq⟩

/-- A task that is about to commit has looked its instance up in a turn of its own, and is informed
of what stood there if nobody has written to the row since. -/
lemma informed_of_commits {engine : Engine σ M} {router : Router σ M} {events : List (Event σ M)}
    (hregistry : engine.registry.Tame) (hrouter : ∀ d ∈ router.definitions, d.Tame)
    (hevents : ∀ job, .start job ∈ events → job.definition.Tame)
    (hget : (Pool.run { engine, router } events).tasks[i]? = some t)
    (hcommits : t.rest.commits = true) :
    ∃ before between t₀ key, events = before ++ .turn i :: between ∧
      (Pool.run { engine, router } before).tasks[i]? = some t₀ ∧ t₀.LooksUp key ∧
      Undisturbed ((Pool.run { engine, router } before).writers key) i key
        (Pool.run { engine, router } events) := by
  rcases looked_up _ rfl events hget with hseeks | ⟨before, between, t₀, key, rfl, hget₀, hlooks⟩
  · cases hcommits.symm.trans hseeks.not_commits
  · refine ⟨before, between, t₀, key, rfl, hget₀, hlooks, ?_⟩
    have hbefore : ∀ job, .start job ∈ before → job.definition.Tame :=
      fun job hmem => hevents job (List.mem_append_left _ hmem)
    have hbetween : ∀ job, .start job ∈ between → job.definition.Tame :=
      fun job hmem => hevents job (List.mem_append_right _ (List.mem_cons_of_mem _ hmem))
    have hsteady := (steady_start hregistry hrouter).run hbefore
    -- The events before the look-up keep the pool steady, those after it what the task has found.
    have hundisturbed := run_keeps Definition.Tame (fun _ _ hchange h => h.change hchange) hbetween
      (hsteady.undisturbed hget₀ hlooks)
    have hrun : Pool.run { engine, router } (before ++ .turn i :: between) =
        ((Pool.run { engine, router } before).turn i).run between := by
      simp only [Pool.run, List.foldl_append, List.foldl_cons]
      rfl
    rw [hrun]
    exact hundisturbed

/-- A commit that is asked for in a pool is about one write, which the task has earned from what it
found under the key of the write. Unless the task was cancelled, the commit is refused only for a
cause that is retryable, and not at all if no write to the row was committed since the look-up. And
jobs that are dispatched one after the other come to the same, and leave the same engine but for its
options, whether or not versions count. -/
theorem rejections_retryable (engine : Engine σ M) (router : Router σ M)
    (events : List (Event σ M)) (hregistry : engine.registry.Tame)
    (hrouter : ∀ d ∈ router.definitions, d.Tame)
    (hevents : ∀ job, .start job ∈ events → job.definition.Tame) :
    let p := Pool.run { engine, router } events
    (∀ i t, p.tasks[i]? = some t → t.rest.commits = true →
      ∃ before between t₀ key found write outcome,
        events = before ++ .turn i :: between ∧
        (Pool.run { engine, router } before).tasks[i]? = some t₀ ∧ t₀.LooksUp key ∧
        t.session.writes = [write] ∧ write.record.key = key ∧
        t.toErrand.Earned key found write outcome ∧
        (∀ error d, t.scope.perform .commit (t.delivery p.engine) = .error error d →
          t.cancelled = true ∧ error = .cancelled ∨
            t.cancelled = false ∧ p.engine.store.Rejects write error ∧
              error.isRetryable = true) ∧
        (Pool.run { engine, router } before).writers key <+: p.writers key ∧
        (p.writers key = (Pool.run { engine, router } before).writers key → t.cancelled = false →
          ∃ d, t.scope.perform .commit (t.delivery p.engine) = .ok () d)) ∧
    ∀ (options : StoreOptions) (jobs : List (Timestamp × Job σ M)),
      engine.registry.Only Request.KeepsToItself →
      (∀ round ∈ jobs, round.2.definition.RulesOnly Request.KeepsToItself) →
        (engine.under options).dispatched router jobs =
          (engine.dispatched router jobs).under options ∧
        ∀ before round after, jobs = before ++ round :: after →
          Run.result (round.2.dispatch router
              { (engine.under options).dispatched router before with now := round.1 }) =
            Run.result (round.2.dispatch router
              { engine.dispatched router before with now := round.1 }) := by
  intro p
  refine ⟨?_, ?_⟩
  · intro i t hget hcommits
    obtain ⟨before, between, t₀, key, hsplit, hget₀, hlooks, hundisturbed⟩ :=
      informed_of_commits hregistry hrouter hevents hget hcommits
    obtain ⟨t', hget', hinformed⟩ := hundisturbed.informed
    cases hget.symm.trans hget'
    obtain ⟨found, write, outcome, hholds, hfound⟩ := hinformed.holds hcommits
    refine ⟨before, between, t₀, key, found, write, outcome, hsplit, hget₀, hlooks, hholds.writes,
      hholds.earned.record_key hholds.knows.record_key, hholds.earned, ?_, hundisturbed.onward, ?_⟩
    · intro error d hcommit
      rcases hholds.rejected hcommit with hcancelled | ⟨hlive, hrejects⟩
      · exact .inl hcancelled
      · exact .inr ⟨hlive, hrejects, hrejects.isRetryable⟩
    · intro hnobody hlive
      exact hholds.taken (hfound hnobody) hlive
  · intro options jobs hkept hjobs
    refine ⟨Engine.dispatched_under hkept hjobs options, ?_⟩
    rintro before round after rfl
    exact Engine.result_under hkept hjobs options

end Pool

namespace Colliding
open Pipeline

/-- An engine without rows. -/
def engine : Engine Unit JobMessage where
  app := ()

/-- The services of a session are its own. -/
lemma own :
    (Services.ofSession [] : Services (ServiceName.Provider Unit JobMessage)).OfSession :=
  (Services.complete_ofSession []).ofSession

/-- The dispatch of a message to the pipeline. -/
def job (event : Event) (id : String) : Job Unit JobMessage where
  definition := pipeline Unit
  options := {}
  message := ⟨event, id⟩
  services := .ofSession []
  own := own
  depth := 0

/-- Some turns of a task. It is about to commit after the seventh. -/
def turns (task count : Nat) : List (Pool.Event Unit JobMessage) := .replicate count (.turn task)

/-- Two tasks race to start the job 7, and two more to note a heartbeat of it; the first of each two
commits. Meanwhile a task is about to start the job 8. -/
def events : List (Pool.Event Unit JobMessage) :=
  .start (job .start "7") :: .start (job .start "7") :: (turns 0 7 ++ turns 1 7 ++ turns 0 1 ++
    .start (job .heartbeat "7") :: .start (job .heartbeat "7") ::
      (turns 2 7 ++ turns 3 7 ++ .start (job .start "8") :: (turns 4 7 ++ turns 2 1)))

/-- A job that is started, noted alive and completed. -/
def rounds : List (Timestamp × Job Unit JobMessage) :=
  [(10, job .start "7"), (20, job .heartbeat "7"), (30, job .complete "7")]

/-- What becomes of the commit of a task, if that is what comes next. -/
def fate (p : Pool Unit JobMessage) (t : Task Unit JobMessage) : String :=
  if t.rest.commits then
    match t.scope.perform .commit (t.delivery p.engine) with
    | .ok _ _ => "taken"
    | .error e _ => e.name
  else "not due"

/-- The actions of the pipeline ask for nothing. -/
lemma rulesOnly (p : Request JobMessage → Prop) : (pipeline Unit).RulesOnly p := by
  have hidle : ∀ run ∈ [(idle : Action Unit JobMessage)], ∀ m, (run m).Only p :=
    List.forall_mem_singleton.2 fun _ => trivial
  -- The first two rules have an action, which does nothing, and the others have none.
  have hnone : ∀ rule ∈ (pipeline Unit).rules.drop 2, rule.actions.length = 0 := by decide
  refine List.forall_mem_cons.2 ⟨hidle, List.forall_mem_cons.2 ⟨hidle, ?_⟩⟩
  intro rule hrule run hrun
  rw [List.eq_nil_of_length_eq_zero (hnone rule hrule)] at hrun
  cases hrun

/-- Whatever is started is tame. -/
lemma tame_of_start (j : Job Unit JobMessage) (h : .start j ∈ events) : j.definition.Tame := by
  have hturns : ∀ task count, .start j ∉ turns task count := by
    intro task count hmem
    cases List.eq_of_mem_replicate hmem
  simp only [events, List.mem_cons, List.mem_append, hturns, false_or, or_false,
    Pool.Event.start.injEq] at h
  rcases h with rfl | rfl | rfl | rfl | rfl <;> exact rulesOnly _

/-- A task with a fate is about to commit. -/
lemma due_of_fate {p : Pool Unit JobMessage} {i : Nat} {name : String}
    (h : p.tasks[i]?.map (fate p) = some name) (hname : name ≠ "not due") :
    ∃ t, p.tasks[i]? = some t ∧ t.rest.commits = true ∧ fate p t = name := by
  obtain ⟨t, hget, hfate⟩ := Option.map_eq_some_iff.1 h
  refine ⟨t, hget, ?_, hfate⟩
  by_contra hdue
  exact hname (hfate.symm.trans (if_neg hdue))

/-- The task that lost the race to start the job and the one that lost the race to note its
heartbeat are refused, and may be retried; nobody has disturbed the start of the other job. -/
theorem colliding_retryable :
    let p := Pool.run { engine } events
    engine.registry.Tame ∧ (∀ d ∈ ({} : Router Unit JobMessage).definitions, d.Tame) ∧
      (∀ j, .start j ∈ events → j.definition.Tame) ∧
      (∀ i ∈ [1, 3], ∃ t error d, p.tasks[i]? = some t ∧
        t.scope.perform .commit (t.delivery p.engine) = .error error d ∧ error.isRetryable = true) ∧
      (∃ t d, p.tasks[4]? = some t ∧ t.scope.perform .commit (t.delivery p.engine) = .ok () d) ∧
      (engine.under ⟨false⟩).dispatched {} rounds =
        (engine.dispatched {} rounds).under ⟨false⟩ := by
  intro p
  have hregistry : engine.registry.Tame := nofun
  have hrouter : ∀ d ∈ ({} : Router Unit JobMessage).definitions, d.Tame := nofun
  obtain ⟨hpending, hsequential⟩ :=
    Pool.rejections_retryable engine {} events hregistry hrouter tame_of_start
  have hfates : p.tasks.map (fate p) =
      ["not due", "InstanceExists", "not due", "Conflict", "taken"] := by decide +kernel
  have hfate : ∀ i : Nat, p.tasks[i]?.map (fate p) =
      ["not due", "InstanceExists", "not due", "Conflict", "taken"][i]? := by
    intro i
    rw [← hfates, List.getElem?_map]
  refine ⟨hregistry, hrouter, tame_of_start, ?refused, ?taken, ?sequential⟩
  case refused =>
    intro i hi
    have hname : ∃ name, p.tasks[i]?.map (fate p) = some name ∧ name ≠ "not due" ∧
        name ≠ "taken" ∧ name ≠ "Cancelled" := by
      rw [hfate]
      rcases List.mem_cons.1 hi with rfl | hi
      · exact ⟨"InstanceExists", rfl, by decide, by decide, by decide⟩
      · cases List.mem_singleton.1 hi
        exact ⟨"Conflict", rfl, by decide, by decide, by decide⟩
    obtain ⟨name, hname, hdue, htaken, hlive⟩ := hname
    obtain ⟨t, hget, hcommits, hname⟩ := due_of_fate hname hdue
    obtain ⟨-, -, -, -, -, write, -, -, -, -, -, -, -, hrejected, -⟩ := hpending i t hget hcommits
    simp only [fate, hcommits, if_true] at hname
    split at hname
    · exact absurd hname.symm htaken
    · next error d hcommit =>
      refine ⟨t, error, d, hget, hcommit, ?_⟩
      rcases hrejected error d hcommit with ⟨-, rfl⟩ | ⟨-, -, hretryable⟩
      · exact absurd hname.symm hlive
      · exact hretryable
  case taken =>
    obtain ⟨t, hget, hcommits, -⟩ := due_of_fate ((hfate 4).trans rfl) (by decide)
    obtain ⟨before, -, -, key, -, write, -, -, -, -, hwrites, hkey, -, -, honward, htaken⟩ :=
      hpending 4 t hget hcommits
    have hkept : p.tasks[4]?.map (fun t => t.session.writes.map fun w => w.record.key) =
        some [⟨"8", "pipeline"⟩] := by decide +kernel
    have hlive : p.tasks[4]?.map Task.cancelled = some false := by decide +kernel
    have hnobody : p.writers ⟨"8", "pipeline"⟩ = [] := by decide +kernel
    rw [hget] at hkept hlive
    simp only [Option.map_some, hwrites, List.map_cons, List.map_nil, hkey, Option.some.injEq,
      List.cons.injEq, and_true] at hkept hlive
    subst hkept
    rw [hnobody] at honward htaken
    obtain ⟨d, hcommit⟩ := htaken (List.prefix_nil.1 honward).symm hlive
    exact ⟨t, d, hget, hcommit⟩
  case sequential =>
    refine (hsequential ⟨false⟩ rounds nofun ?_).1
    refine List.forall_mem_cons.2 ⟨rulesOnly _, List.forall_mem_cons.2 ⟨rulesOnly _, ?_⟩⟩
    exact List.forall_mem_cons.2 ⟨rulesOnly _, nofun⟩

end Colliding

end Saga
