import Saga.Instance.Codec
import Saga.Pipeline
import Saga.Proofs.Blueprint.Compile
import Saga.Proofs.Dispatch.Idle
import Saga.Proofs.Script.Emission
import Saga.Proofs.Storage.Landing

/-!
# The algorithm of a dispatch

What a dispatch is to come to, said without its script: `Prescribes` goes by what stands under the
key, by the rule that is there for it, and by what the actions of the rule come to on their own.
`dispatch_prescribed` is that a dispatch in a fresh and live session, whose actions only send, comes
to just that.
-/

namespace Saga

variable {σ M : Type} [Message M]

/-- What the actions of a rule come to on their own. -/
def Blueprint.emit {S : StateSet} (b : Blueprint σ M S) (scope : Scope σ M) (m : M)
    (actions : List (Action σ M)) (x : σ) : Emission σ EngineError Unit :=
  emitAll scope.services.contains b.definition.name (Message.type m).name m 0 actions x

/-- The result, the state of the application and the store that a dispatch is to end with at the
time `now`, when the message belongs to the instance under the key. -/
inductive Definition.Prescribes (d : Definition σ M) (options : DispatchOptions) (scope : Scope σ M)
    (b : Blueprint σ M d.states) (m : M) (key : InstanceKey) (now : Timestamp) (app : σ)
    (before : Store) : Except EngineError (Outcome d.states) → σ → Store → Prop where
  | started {rule x messages after} :
    before.get? key = none →
    b.starts.get? (Message.type m) = some rule →
    b.emit scope m rule.actions app = ⟨.ok (), x, messages⟩ →
    Store.Landed before after ⟨⟨key, rule.target.ordinal, 1⟩, now, now⟩ messages →
    Prescribes d options scope b m key now app before
      (.ok (.started key.correlationId rule.target)) x after
  | startFailed {rule e x messages} :
    before.get? key = none →
    b.starts.get? (Message.type m) = some rule →
    b.emit scope m rule.actions app = ⟨.error e, x, messages⟩ →
    Prescribes d options scope b m key now app before (.error e) x before
  | dropped :
    before.get? key = none →
    b.starts.get? (Message.type m) = none →
    Prescribes d options scope b m key now app before
      (.ok (.dropped key.correlationId)) app before
  | unknown {row} :
    before.get? key = some row →
    d.states.ofOrdinal? row.record.state = none →
    Prescribes d options scope b m key now app before
      (.error (.unknownStateOrdinal d.id.name row.record.state)) app before
  | transferred {row state rule x messages after} :
    before.get? key = some row →
    d.states.ofOrdinal? row.record.state = some state →
    b.transfers.get? (state, Message.type m) = some rule →
    b.emit scope m rule.actions app = ⟨.ok (), x, messages⟩ →
    Store.Landed before after
      ⟨⟨key, (rule.target.getD state).ordinal, row.record.version + 1⟩, row.createdAt, now⟩
      messages →
    Prescribes d options scope b m key now app before
      (.ok (.transferred key.correlationId state (rule.target.getD state))) x after
  | transferFailed {row state rule e x messages} :
    before.get? key = some row →
    d.states.ofOrdinal? row.record.state = some state →
    b.transfers.get? (state, Message.type m) = some rule →
    b.emit scope m rule.actions app = ⟨.error e, x, messages⟩ →
    Prescribes d options scope b m key now app before (.error e) x before
  | kept {row state after} :
    before.get? key = some row →
    d.states.ofOrdinal? row.record.state = some state →
    b.transfers.get? (state, Message.type m) = none →
    options.persistUnchanged = true →
    Store.Landed before after
      ⟨⟨key, state.ordinal, row.record.version + 1⟩, row.createdAt, now⟩ [] →
    Prescribes d options scope b m key now app before
      (.ok (.ignored key.correlationId state true)) app after
  | ignored {row state} :
    before.get? key = some row →
    d.states.ofOrdinal? row.record.state = some state →
    b.transfers.get? (state, Message.type m) = none →
    options.persistUnchanged = false →
    Prescribes d options scope b m key now app before
      (.ok (.ignored key.correlationId state false)) app before

namespace Definition
open Script

variable {d : Definition σ M} {options : DispatchOptions} {scope : Scope σ M}
  {b : Blueprint σ M d.states} {m : M} {key : InstanceKey}

/-- Versions stay 64-bit words: one more commit fits when the version of the row under the key is
not the last one. -/
lemma Prescribes.version_lt {now : Timestamp} {app x : σ} {before after : Store}
    {result : Except EngineError (Outcome d.states)}
    (h : d.Prescribes options scope b m key now app before result x after)
    (hroom : ∀ row, before.get? key = some row → row.record.version + 1 < wordBound)
    {row : StoredInstance} (hrow : after.get? key = some row) : row.record.version < wordBound := by
  have hkept (hrow : before.get? key = some row) : row.record.version < wordBound :=
    Nat.lt_of_succ_lt (hroom row hrow)
  cases h with
  | started _ _ _ hlanded =>
    cases hlanded.here.symm.trans hrow
    exact (by decide : 1 < wordBound)
  | transferred hbefore _ _ _ hlanded | kept hbefore _ _ _ hlanded =>
    cases hlanded.here.symm.trans hrow
    exact hroom _ hbefore
  | startFailed | dropped | unknown | transferFailed | ignored => exact hkept hrow

/-- The actions of a rule come to what they come to on their own; after them, in a session that has
staged their messages, comes the rest. -/
lemma run_actions_bind {β : Type} (h : scope.services.Complete) {actions : List (Action σ M)}
    (hactions : ∀ action ∈ actions, (action m).Only Request.OnlySends)
    (rest : Script σ M EngineError β) (s : Delivery σ M) (hlive : s.cancelled = false)
    (hopen : s.session.committed = false) :
    ∃ log, ((runActions b.definition.name (Message.type m).name m 0 actions).bind fun _ =>
        rest).run scope s =
      match (b.emit scope m actions s.app).result with
      | .ok () => rest.run scope
          (s.gained (b.emit scope m actions s.app).app (b.emit scope m actions s.app).messages log)
      | .error e => .error e
          (s.gained (b.emit scope m actions s.app).app (b.emit scope m actions s.app).messages
            log) := by
  obtain ⟨log, hrun⟩ := run_emission h
    (runActions_only (by trivial) b.definition.name (Message.type m).name m 0 hactions) s hlive
    hopen
  have hemit : (runActions b.definition.name (Message.type m).name m 0 actions).emission
      scope.services.contains s.app = b.emit scope m actions s.app := emission_runActions ..
  rw [hemit] at hrun
  refine ⟨log, ?_⟩
  rw [run_bind, hrun]
  cases (b.emit scope m actions s.app).result <;> rfl

omit [Message M] in
/-- A write that the store takes is committed when it is staged alone. -/
lemma run_landing (h : scope.services.Complete) {outcome : Outcome d.states}
    (hwrites : outcome.writes = true) (write : StagedWrite) {s : Delivery σ M} {after : Store}
    (hlive : s.cancelled = false) (hopen : s.session.committed = false)
    (hempty : s.session.writes = [])
    (hcommit : s.store.commit s.now [write] s.session.messages = .ok after) :
    ∃ s', ((staging write outcome).bind d.conclude).run scope s = .ok outcome s' ∧
      s'.store = after ∧ s'.app = s.app := by
  have hchecked : (Script.checkLive : Script σ M EngineError Unit).run scope s = .ok () s := by
    rw [run_checkLive, hlive]
    rfl
  have hstaged := run_stage_of_open (ε := EngineError) h write s hopen
  rw [hempty, List.nil_append] at hstaged
  let staged : Delivery σ M := { s with session := { s.session with writes := [write] } }
  have hreact : (staging write outcome : Script σ M EngineError (Outcome d.states)).run scope s =
      .ok outcome staged := by
    simp only [staging, run_bind, hchecked, hstaged, run_done]
    rfl
  obtain ⟨log, hdone⟩ := run_commit_of_ok (ε := EngineError) h (d := staged) hlive hopen hcommit
  have hconclude : (d.conclude outcome).run scope staged =
      .ok outcome ({ staged with session := .closed, store := after, log }.logged .debug .dispatcher
        s!"{d.id.name}: {outcome.summary}") := by
    simp only [Definition.conclude, hwrites, if_true, bind_eq, run_bind, hdone, run_report]
    rfl
  rw [run_bind, hreact]
  exact ⟨_, hconclude, rfl, rfl⟩

section Rule

variable {s : Delivery σ M} {actions : List (Action σ M)} {x : σ} {messages : List Envelope}
  (hservices : scope.services.Complete)
  (hactions : ∀ action ∈ actions, (action m).Only Request.OnlySends)
  (hsession : s.session = {}) (hlive : s.cancelled = false) (outcome : Outcome d.states)
  (write : StagedWrite)

include hservices hactions hsession hlive

/-- A rule with an action that fails ends with that failure, and nothing is stored. -/
lemma run_rule_of_error {e : EngineError}
    (hemit : b.emit scope m actions s.app = ⟨.error e, x, messages⟩) :
    ∃ s', (((runActions b.definition.name (Message.type m).name m 0 actions).bind fun _ =>
        staging write outcome).bind d.conclude).run scope s = .error e s' ∧
      s'.store = s.store ∧ s'.app = x := by
  have hopen : s.session.committed = false := by rw [hsession]
  rw [bind_assoc]
  obtain ⟨log, hrun⟩ := run_actions_bind (b := b) hservices hactions
    ((staging write outcome).bind d.conclude) s hlive hopen
  rw [hrun, hemit]
  exact ⟨_, rfl, rfl, rfl⟩

/-- A rule whose actions succeed ends with its outcome once the store takes its write and the
messages of the actions. -/
lemma run_rule_of_ok {after : Store}
    (hemit : b.emit scope m actions s.app = ⟨.ok (), x, messages⟩)
    (hwrites : outcome.writes = true)
    (hcommit : s.store.commit s.now [write] messages = .ok after) :
    ∃ s', (((runActions b.definition.name (Message.type m).name m 0 actions).bind fun _ =>
        staging write outcome).bind d.conclude).run scope s = .ok outcome s' ∧
      s'.store = after ∧ s'.app = x := by
  have hopen : s.session.committed = false := by rw [hsession]
  rw [bind_assoc]
  obtain ⟨log, hrun⟩ := run_actions_bind (b := b) hservices hactions
    ((staging write outcome).bind d.conclude) s hlive hopen
  rw [hrun, hemit]
  have hempty : (s.gained x messages log).session.writes = [] := by
    simp [Delivery.gained, hsession]
  have hstaged : (s.gained x messages log).session.messages = messages := by
    simp [Delivery.gained, hsession]
  refine run_landing hservices hwrites write (s := s.gained x messages log) hlive hopen hempty ?_
  rw [hstaged]
  exact hcommit

end Rule

/-- Whether a run ends as a dispatch is to end. -/
def EndsAsPrescribed (d : Definition σ M) (options : DispatchOptions) (scope : Scope σ M)
    (b : Blueprint σ M d.states) (m : M) (key : InstanceKey) (engine : Engine σ M)
    (run : EStateM.Result EngineError (Delivery σ M) (Outcome d.states)) : Prop :=
  d.Prescribes options scope b m key engine.now engine.app engine.store (Run.result run)
    (Run.final run).app (Run.final run).store

section Prescribed

variable {s : Delivery σ M} (hservices : scope.services.Complete)
  (hactions : b.Only Request.OnlySends m) (hsession : s.session = {}) (hlive : s.cancelled = false)

include hservices hactions hsession hlive

/-- Reacting to a key without an instance, and concluding. -/
lemma begin_prescribed (hrow : s.store.get? key = none) :
    d.EndsAsPrescribed options scope b m key s.toEngine
      (((d.begin b key m).bind d.conclude).run scope s) := by
  cases hrule : b.starts.get? (Message.type m) with
  | none =>
    rw [begin_of_none hrule]
    exact .dropped hrow hrule
  | some rule =>
    have honly : ∀ action ∈ rule.actions, (action m).Only Request.OnlySends :=
      fun action hmem => hactions action (.inl ⟨rule, hrule, hmem⟩)
    rw [begin_of_some hrule]
    cases hemit : b.emit scope m rule.actions s.app with
    | mk result x messages =>
      cases result with
      | error e =>
        obtain ⟨s', hrun, hstore, rfl⟩ := run_rule_of_error (d := d) hservices honly hsession hlive
          (.started key.correlationId rule.target) (.add (.fresh key rule.target.ordinal)) hemit
        rw [hrun]
        show d.Prescribes options scope b m key s.now s.app s.store (.error e) s'.app s'.store
        rw [hstore]
        exact .startFailed hrow hrule hemit
      | ok u =>
        obtain ⟨after, hcommit, hlanded⟩ := Store.exists_commit_add s.now
          (.fresh key rule.target.ordinal) hrow messages
        obtain ⟨s', hrun, rfl, rfl⟩ := run_rule_of_ok (d := d) hservices honly hsession hlive
          (.started key.correlationId rule.target) (.add (.fresh key rule.target.ordinal)) hemit rfl
          hcommit
        rw [hrun]
        exact .started hrow hrule hemit hlanded

/-- Reacting to an instance, and concluding. -/
lemma moveOn_prescribed {row : StoredInstance} (hrow : s.store.get? key = some row) :
    d.EndsAsPrescribed options scope b m key s.toEngine
      (((d.moveOn options b key m row.record).bind d.conclude).run scope s) := by
  have hkey : row.record.key = key := InstanceTable.key_of_get? hrow
  have hcommit : ∀ (state : d.states.State) messages, ∃ after,
      s.store.commit s.now [.update (row.record.withState state.ordinal)] messages = .ok after ∧
        Store.Landed s.store after
          ⟨⟨key, state.ordinal, row.record.version + 1⟩, row.createdAt, s.now⟩ messages := by
    intro state messages
    rw [← hkey] at hrow
    have hexists := Store.exists_commit_update s.now
      (row.record.withState state.ordinal) hrow rfl messages
    simpa [StoredInstance.advanced, InstanceRecord.withState, hkey] using hexists
  cases hstate : d.states.ofOrdinal? row.record.state with
  | none =>
    rw [moveOn_of_unknown hstate]
    exact .unknown hrow hstate
  | some state =>
    cases hrule : b.transfers.get? (state, Message.type m) with
    | none =>
      rw [moveOn_of_none hstate hrule]
      cases hpersist : options.persistUnchanged with
      | false => exact .ignored hrow hstate hrule hpersist
      | true =>
        -- No action has run, so there are no messages to commit.
        obtain ⟨after, hcommit, hlanded⟩ := hcommit state []
        have hopen : s.session.committed = false := by rw [hsession]
        have hempty : s.session.writes = [] := by rw [hsession]
        have hnothing : s.session.messages = [] := by rw [hsession]
        rw [← hnothing] at hcommit
        obtain ⟨s', hrun, rfl, happ⟩ := run_landing (d := d) hservices
          (show (Outcome.ignored key.correlationId state true).writes = true from rfl)
          (.update (row.record.withState state.ordinal))
          (s := s.logged .debug .dispatcher
            s!"{key.path}: no rule for {(Message.type m).name} in state {state.name}")
          hlive hopen hempty hcommit
        rw [bind_assoc, run_bind, run_report]
        simp only [if_true]
        rw [hrun]
        show d.Prescribes options scope b m key s.now s.app s.store _ s'.app s'.store
        rw [happ]
        exact .kept hrow hstate hrule hpersist hlanded
    | some rule =>
      have honly : ∀ action ∈ rule.actions, (action m).Only Request.OnlySends :=
        fun action hmem => hactions action (.inr ⟨state, rule, hrule, hmem⟩)
      rw [moveOn_of_some hstate hrule]
      cases hemit : b.emit scope m rule.actions s.app with
      | mk result x messages =>
        cases result with
        | error e =>
          obtain ⟨s', hrun, hstore, rfl⟩ := run_rule_of_error (d := d) hservices honly hsession
            hlive (.transferred key.correlationId state (rule.target.getD state))
            (.update (row.record.withState (rule.target.getD state).ordinal)) hemit
          rw [hrun]
          show d.Prescribes options scope b m key s.now s.app s.store (.error e) s'.app s'.store
          rw [hstore]
          exact .transferFailed hrow hstate hrule hemit
        | ok u =>
          obtain ⟨after, hcommit, hlanded⟩ := hcommit (rule.target.getD state) messages
          obtain ⟨s', hrun, rfl, rfl⟩ := run_rule_of_ok (d := d) hservices honly hsession hlive
            (.transferred key.correlationId state (rule.target.getD state))
            (.update (row.record.withState (rule.target.getD state).ordinal)) hemit rfl hcommit
          rw [hrun]
          exact .transferred hrow hstate hrule hemit hlanded

end Prescribed

/-- A live dispatch in a fresh session, whose actions only send, to the instance that its
correlation id names, ends as it is to end; where no rule is there for what stands under the key,
no action runs; and the version it leaves under the key is a 64-bit word, if there was room for one
more commit. -/
theorem dispatch_prescribed (d : Definition σ M) (options : DispatchOptions) (scope : Scope σ M)
    (engine : Engine σ M) (m : M) (b : Blueprint σ M d.states) (select : M → String)
    (hcompile : d.compile = .ok b)
    (hkept : ∀ cached, engine.registry.lookup ⟨d.id, Message.type m⟩ = some cached →
      cached.as? d.states = some b)
    (hservices : scope.services.Complete)
    (hselect : b.selectors.get? (Message.type m) = some select)
    (hid : isBlank (select m) = false)
    (hactions : b.Only Request.OnlySends m) :
    let key : InstanceKey := ⟨select m, d.id.name⟩
    let run := d.dispatch options scope m (engine.delivery false)
    d.Prescribes options scope b m key engine.now engine.app engine.store (Run.result run)
        (Run.final run).app (Run.final run).store ∧
      (d.Unmatched b m ((engine.store.get? key).map StoredInstance.record) →
        ∃ fetched, Registry.blueprint d (Message.type m) (engine.delivery false) = .ok b fetched ∧
          d.RunsNoAction options scope b m fetched) ∧
      ((∀ row, engine.store.get? key = some row → row.record.version + 1 < wordBound) →
        ∀ row, (Run.final run).store.get? key = some row → row.record.version < wordBound) := by
  intro key run
  obtain ⟨registry, log, hfetch⟩ :=
    Registry.blueprint_of_compile (s := engine.delivery false) hcompile hkept
  let s : Delivery σ M := { engine.delivery false with registry, log }
  have hlocate : (d.locate b m).run scope s =
      .ok (key, (engine.store.get? key).map StoredInstance.record) s :=
    locate_run_of_live hservices hselect hid rfl
  have hrun : run = ((d.react options b key m
      ((engine.store.get? key).map StoredInstance.record)).bind d.conclude).run scope s := by
    show d.dispatch options scope m (engine.delivery false) = _
    rw [dispatch_apply, hfetch]
    show (d.script options b m).run scope s = _
    rw [script_eq, run_bind, hlocate]
  have hprescribed : d.EndsAsPrescribed options scope b m key s.toEngine run := by
    rw [hrun]
    cases hrow : engine.store.get? key with
    | none => exact begin_prescribed hservices hactions rfl rfl hrow
    | some row => exact moveOn_prescribed hservices hactions rfl rfl hrow
  refine ⟨hprescribed, fun hunmatched => ?_, fun hroom row => hprescribed.version_lt hroom⟩
  exact ⟨s, hfetch, runsNoAction_of_unmatched hlocate hunmatched⟩

end Definition

namespace Announcing
open Pipeline

/-- Tells about a job. -/
def announce (text : String) : Action Unit JobMessage :=
  fun m => Script.ask (.publish ⟨.notification, text, .str m.id⟩)

/-- A workflow that tells what becomes of a job. -/
def definition : Definition Unit JobMessage where
  id := ⟨"announcing", 0⟩
  states := stages
  rules := [
    .start Event.start.type stages.processing [announce "Started"],
    .on stages.processing Event.complete.type
      [.action (announce "Completed"), .moveTo stages.completed, .action (announce "Idle")],
    .correlate Event.start.type JobMessage.id,
    .correlate Event.complete.type JobMessage.id]

/-- What the workflow compiles to. -/
def blueprint : Blueprint Unit JobMessage stages where
  definition := ⟨"announcing", 0⟩
  starts := Keyed.empty.insert Event.start.type ⟨stages.processing, [announce "Started"]⟩
  transfers := Keyed.empty.insert (stages.processing, Event.complete.type)
    ⟨some stages.completed, [announce "Completed", announce "Idle"]⟩
  selectors := (Keyed.empty.insert Event.start.type JobMessage.id).insert Event.complete.type
    JobMessage.id

/-- An engine with a job that is running. -/
def engine : Engine Unit JobMessage where
  store := {
    table := .ofList [⟨⟨⟨"6", "announcing"⟩, 1, 4⟩, 10, 20⟩,
      ⟨⟨⟨"7", "announcing"⟩, 1, 2⟩, 30, 40⟩] }
  app := ()
  now := 50

/-- A scope without other definitions. -/
def scope : Scope Unit JobMessage := ⟨.ofSession [], fun _ _ => throw .cancelled⟩

/-- The workflow compiles to its blueprint. -/
lemma compile_eq : definition.compile = .ok blueprint := rfl

/-- The actions of the workflow only send. -/
lemma only (m : JobMessage) : blueprint.Only Request.OnlySends m := by
  refine .of_compile (d := definition) ?_ compile_eq
  refine List.forall_mem_cons.2 ⟨?start, List.forall_mem_cons.2 ⟨?on, ?selectors⟩⟩
  case start => exact List.forall_mem_cons.2 ⟨Script.Only.ask trivial, nofun⟩
  case on =>
    refine List.forall_mem_cons.2 ⟨Script.Only.ask trivial, ?_⟩
    exact List.forall_mem_cons.2 ⟨Script.Only.ask trivial, nofun⟩
  case selectors =>
    refine List.forall_mem_cons.2 ⟨nofun, ?_⟩
    exact List.forall_mem_cons.2 ⟨nofun, nofun⟩

/-- A running job that completes is taken to its last stage, as the algorithm says. -/
theorem announcing_prescribed :
    let run := definition.dispatch {} scope ⟨.complete, "7"⟩ (engine.delivery false)
    scope.services.Complete ∧ (∀ m, blueprint.Only Request.OnlySends m) ∧
      blueprint.selectors.get? Event.complete.type = some JobMessage.id ∧
      isBlank (JobMessage.id ⟨.complete, "7"⟩) = false ∧
      definition.Prescribes {} scope blueprint ⟨.complete, "7"⟩ ⟨"7", "announcing"⟩ 50 ()
        engine.store (Run.result run) (Run.final run).app (Run.final run).store ∧
      (∀ row, (Run.final run).store.get? ⟨"7", "announcing"⟩ = some row →
        row.record.version < wordBound) ∧
      (Run.result run).toOption =
        some (.transferred "7" stages.processing stages.completed) := by
  have hservices : scope.services.Complete := Services.complete_ofSession []
  have hselect : blueprint.selectors.get? Event.complete.type = some JobMessage.id := rfl
  have hid : isBlank (JobMessage.id ⟨.complete, "7"⟩) = false := by decide
  obtain ⟨hprescribed, -, hbound⟩ :=
    Definition.dispatch_prescribed definition {} scope engine ⟨.complete, "7"⟩ blueprint
      JobMessage.id compile_eq nofun hservices hselect hid (only _)
  have hroom : ∀ row, engine.store.get? ⟨"7", "announcing"⟩ = some row →
      row.record.version + 1 < wordBound := by
    rintro row ⟨⟩
    decide
  refine ⟨hservices, only, hselect, hid, hprescribed, hbound hroom, ?_⟩
  decide +kernel

end Announcing

end Saga
