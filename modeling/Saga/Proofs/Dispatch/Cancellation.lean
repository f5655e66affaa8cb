import Saga.Proofs.Dispatch.Atomicity
import Saga.Proofs.Script.Actions

/-!
# Cancelled dispatches

A delivery can be cancelled before its dispatch or while one of the actions runs; whoever cancels it
then, the action sees it as a request of its own that was answered. The cancellation is looked at
before the instance is looked up, before each action, before the row is staged, and by the commit,
so it is never overlooked. A dispatch that was cancelled before has read nothing and run nothing
(`Definition.dispatch_of_cancelled`). One that is cancelled by an action ends where the action ends
(`Definition.script_of_starts`), and no delivery is cancelled in any other way
(`Definition.script_cancelled`).
-/

namespace Saga

variable {σ M : Type}

/-- The failure of an action is told as a cancellation if it wraps one, and else as that of the
action. -/
lemma EngineError.ofAction_cases (definition message : String) (index : Nat) (failure : Failure) :
    failure.recover? = some .cancelled ∧ ofAction definition message index failure = .cancelled ∨
      failure.recover? ≠ some .cancelled ∧
        ∃ cause, ofAction definition message index failure =
          .actionFailed definition message index cause := by
  unfold ofAction
  split
  · next hrecover => exact .inl ⟨hrecover, rfl⟩
  · next cause hother hrecover =>
    right
    refine ⟨?_, _, rfl⟩
    rintro hcancelled
    cases hrecover.symm.trans hcancelled
    exact hother rfl
  · next hrecover =>
    right
    rw [hrecover]
    exact ⟨nofun, _, rfl⟩

/-- What a cancelled dispatch fails with once it has its blueprint: with the lack of a correlation
id or of a service that it needs, and else with the cancellation. -/
def Blueprint.declined {S : StateSet} [Message M] (b : Blueprint σ M S) (scope : Scope σ M)
    (m : M) : EngineError :=
  match b.correlate m with
  | .error e => e
  | .ok _ =>
    if scope.services.contains .repository then
      if scope.services.contains .unitOfWork then .cancelled
      else .serviceNotRegistered ServiceName.unitOfWork.label
    else .serviceNotRegistered ServiceName.repository.label

namespace Definition
open Script

variable [Message M] {d : Definition σ M} {options : DispatchOptions} {scope : Scope σ M}
  {b : Blueprint σ M d.states} {m : M} {key : InstanceKey} {found : Option InstanceRecord}
  {actions : List (Action σ M)} {s fetched : Delivery σ M} {action : Action σ M} {index : Nat}

/-- The actions of the rule that is there for what was found. -/
def matching? (d : Definition σ M) (b : Blueprint σ M d.states) (m : M) :
    Option InstanceRecord → Option (List (Action σ M))
  | none => (b.starts.get? (Message.type m)).map StartRule.actions
  | some record => (d.states.ofOrdinal? record.state).bind fun state =>
    (b.transfers.get? (state, Message.type m)).map TransferRule.actions

/-- Whether a dispatch that has fetched its blueprint comes to start an action, which one by its
number, and in which state. -/
inductive Starts (d : Definition σ M) (scope : Scope σ M) (b : Blueprint σ M d.states) (m : M)
    (fetched : Delivery σ M) (index : Nat) (action : Action σ M) (s : Delivery σ M) : Prop where
  | intro (key : InstanceKey) (found : Option InstanceRecord) (actions : List (Action σ M)) :
    (d.locate b m).run scope fetched = .ok (key, found) fetched →
    d.matching? b m found = some actions →
    actions[index]? = some action →
    (runActions b.definition.name (Message.type m).name m 0 (actions.take index)).run scope
        fetched = .ok () s →
    s.cancelled = false →
    Starts d scope b m fetched index action s

/-- With a rule its actions are run, and a row is staged for an outcome with a write. -/
lemma react_of_matching (options : DispatchOptions) (key : InstanceKey)
    (h : d.matching? b m found = some actions) :
    ∃ write outcome, d.react options b key m found =
      (runActions b.definition.name (Message.type m).name m 0 actions).bind fun _ =>
        staging write outcome := by
  cases found with
  | none =>
    obtain ⟨rule, hrule, rfl⟩ := Option.map_eq_some_iff.1 h
    exact ⟨_, _, begin_of_some hrule⟩
  | some record =>
    obtain ⟨state, hstate, h⟩ := Option.bind_eq_some_iff.1 h
    obtain ⟨rule, hrule, rfl⟩ := Option.map_eq_some_iff.1 h
    exact ⟨_, _, moveOn_of_some hstate hrule⟩

/-- The actions of the rule that is there for what was found are those that the message can
trigger. -/
lemma triggers_of_matching {found : Option InstanceRecord} {actions : List (Action σ M)}
    (h : d.matching? b m found = some actions) {action : Action σ M} (hmem : action ∈ actions) :
    b.Triggers m action := by
  cases found with
  | none =>
    obtain ⟨rule, hrule, rfl⟩ := Option.map_eq_some_iff.1 h
    exact .inl ⟨rule, hrule, hmem⟩
  | some record =>
    obtain ⟨state, -, h⟩ := Option.bind_eq_some_iff.1 h
    obtain ⟨rule, hrule, rfl⟩ := Option.map_eq_some_iff.1 h
    exact .inr ⟨state, rule, hrule, hmem⟩

omit [Message M] in
/-- Staging a write cancels nothing. -/
lemma staging_leavesLive {α : Type} (write : StagedWrite) (a : α) :
    (staging write a : Script σ M EngineError α).Only Request.LeavesLive := by
  refine (Only.checkLive trivial).bind fun _ => ?_
  cases write with
  | add record => exact (Only.ask trivial).bind fun _ => trivial
  | update record => exact (Only.ask trivial).bind fun _ => trivial

/-- Reacting without a rule runs no action, so it cancels nothing. -/
lemma react_leavesLive (options : DispatchOptions) (key : InstanceKey)
    (h : d.matching? b m found = none) :
    (d.react options b key m found).Only Request.LeavesLive := by
  have hreport : ∀ text, (report .debug .dispatcher text : Script σ M EngineError Unit).Only
      Request.LeavesLive := fun _ => Only.ask trivial
  cases found with
  | none =>
    have hnone : b.starts.get? (Message.type m) = none := Option.map_eq_none_iff.1 h
    show (d.begin b key m).Only _
    rw [begin_of_none hnone]
    exact (hreport _).bind fun _ => trivial
  | some record =>
    show (d.moveOn options b key m record).Only _
    cases hstate : d.states.ofOrdinal? record.state with
    | none =>
      rw [moveOn_of_unknown hstate]
      trivial
    | some state =>
      have hnone : b.transfers.get? (state, Message.type m) = none := by
        simpa [matching?, hstate] using h
      rw [moveOn_of_none hstate hnone]
      refine (hreport _).bind fun _ => ?_
      split
      · exact staging_leavesLive _ _
      · trivial

omit [Message M] in
/-- Concluding a dispatch cancels nothing. -/
lemma conclude_leavesLive (outcome : Outcome d.states) :
    (d.conclude outcome : Script σ M EngineError (Outcome d.states)).Only Request.LeavesLive := by
  unfold conclude
  split
  · exact (Only.ask trivial).bind fun _ => (Only.ask trivial).bind fun _ => trivial
  · trivial

/-- A cancelled delivery looks nothing up: it fails before, as it declines. -/
lemma locate_of_cancelled (hcancelled : s.cancelled = true) :
    (d.locate b m).run scope s = .error (b.declined scope m) s := by
  unfold locate Blueprint.declined Services.contains
  simp only [bind_eq, run_bind, run_ofExcept, run_require]
  cases b.correlate m with
  | error e => rfl
  | ok id =>
    cases scope.services.get? .repository with
    | none => rfl
    | some repository =>
      cases scope.services.get? .unitOfWork with
      | none => rfl
      | some unit => simp [run_checkLive_of_cancelled hcancelled]

/-- A cancelled dispatch fetches its blueprint and then declines, or fails where the blueprint
does. -/
lemma dispatch_of_cancelled (hcancelled : s.cancelled = true) :
    d.dispatch options scope m s =
      match Registry.blueprint d (Message.type m) s with
      | .ok b s' => .error (b.declined scope m) s'
      | .error e s' => .error e s' := by
  rw [dispatch_apply]
  rcases Registry.blueprint_cases d (Message.type m) s with
    ⟨e, hfetch⟩ | ⟨b, registry, log, hfetch, -⟩
  · rw [hfetch]
  · rw [hfetch]
    have hlocate : (d.locate b m).run scope { s with registry, log } = _ :=
      locate_of_cancelled hcancelled
    show (d.script options b m).run scope { s with registry, log } = _
    rw [script_eq, run_bind, hlocate]

/-- A dispatch that is cancelled by one of its actions ends in the state in which the action ends.
-/
lemma script_of_starts (options : DispatchOptions) (h : d.Starts scope b m fetched index action s)
    (hcancelled : (Run.final ((action m).run scope s)).cancelled = true) :
    (d.script options b m).run scope fetched =
      match (action m).run scope s with
      | .ok () s' => .error .cancelled s'
      | .error e s' =>
        .error (.ofAction b.definition.name (Message.type m).name index e) s' := by
  obtain ⟨key, found, actions, hlocate, hmatching, hat, hbefore, hlive⟩ := h
  obtain ⟨write, outcome, hreact⟩ := react_of_matching options key hmatching
  have hactions := run_runActions_split hat hbefore hlive
  rw [script_eq, run_bind, hlocate]
  show ((d.react options b key m found).bind d.conclude).run scope fetched = _
  rw [run_bind, hreact, run_bind, hactions, Nat.zero_add]
  cases hrun : (action m).run scope s with
  | error e s' => rfl
  | ok u s' =>
    rw [hrun, Run.final_ok] at hcancelled
    have hstopped : Script.run scope _ s' = _ :=
      run_rule_of_cancelled b.definition.name (Message.type m).name m (index + 1)
        (actions.drop (index + 1)) write outcome hcancelled
    rw [run_bind] at hstopped
    dsimp only
    rw [hstopped]

/-- After an action that has cancelled the delivery no other one starts. -/
lemma Starts.not_later (h : d.Starts scope b m fetched index action s)
    (hcancelled : (Run.final ((action m).run scope s)).cancelled = true) {later : Nat}
    {action' : Action σ M} {s' : Delivery σ M} (hlater : index < later) :
    ¬ d.Starts scope b m fetched later action' s' := by
  intro h'
  obtain ⟨key, found, actions, hlocate, hmatching, hat, hbefore, hlive⟩ := h
  obtain ⟨key', found', actions', hlocate', hmatching', hat', hbefore', hlive'⟩ := h'
  cases hlocate.symm.trans hlocate'
  cases hmatching.symm.trans hmatching'
  -- The actions before the later one include this one, after which they came to an end.
  have hat'' : (actions.take later)[index]? = some action := by
    rw [List.getElem?_take_of_lt hlater, hat]
  have hbefore'' : (runActions b.definition.name (Message.type m).name m 0
      ((actions.take later).take index)).run scope fetched = .ok () s := by
    rw [List.take_take, Nat.min_eq_left (Nat.le_of_lt hlater), hbefore]
  rw [run_runActions_split hat'' hbefore'' hlive] at hbefore'
  cases hrun : (action m).run scope s with
  | error e s1 =>
    rw [hrun] at hbefore'
    cases hbefore'
  | ok u s1 =>
    rw [hrun] at hbefore'
    rw [hrun, Run.final_ok] at hcancelled
    have hsame : Run.final (Script.run scope _ s1) = s1 :=
      final_runActions_of_cancelled b.definition.name (Message.type m).name m (0 + index + 1)
        ((actions.take later).drop (index + 1)) hcancelled
    dsimp only at hbefore'
    rw [hbefore', Run.final_ok] at hsame
    rw [← hsame, hlive'] at hcancelled
    cases hcancelled

/-- A dispatch that was live when it had its blueprint is cancelled by one of its actions, or by
nothing. -/
lemma script_cancelled (hservices : scope.services.OfSession) (hlive : fetched.cancelled = false)
    (hcancelled : (Run.final ((d.script options b m).run scope fetched)).cancelled = true) :
    ∃ index action s, d.Starts scope b m fetched index action s ∧
      (Run.final ((action m).run scope s)).cancelled = true := by
  rw [script_eq, run_bind] at hcancelled
  rcases locate_run (d := d) (b := b) (m := m) hservices fetched with
    ⟨e, hlocate⟩ | ⟨key, -, -, -, hlocate⟩
  · rw [hlocate] at hcancelled
    cases hlive.symm.trans hcancelled
  · rw [hlocate] at hcancelled
    cases hmatching : d.matching? b m (fetched.session.read fetched.store key) with
    | none =>
      have honly := (react_leavesLive options key hmatching).bind
        conclude_leavesLive
      have hsame := honly.run_cancelled hservices fetched
      cases hlive.symm.trans (hsame.symm.trans hcancelled)
    | some actions =>
      obtain ⟨write, outcome, hreact⟩ :=
        react_of_matching options key hmatching
      have honly := (staging_leavesLive write outcome).bind conclude_leavesLive
      have hactions : (Run.final ((runActions b.definition.name (Message.type m).name m 0
          actions).run scope fetched)).cancelled = true := by
        dsimp only at hcancelled
        rw [hreact, bind_assoc, run_bind] at hcancelled
        cases hrun : (runActions b.definition.name (Message.type m).name m 0 actions).run scope
            fetched with
        | error e s =>
          rw [hrun] at hcancelled
          exact hcancelled
        | ok u s =>
          rw [hrun] at hcancelled
          exact (honly.run_cancelled hservices s).symm.trans hcancelled
      obtain ⟨index, action, s, hat, hbefore, hlive', hends⟩ :=
        exists_action_of_cancelled hlive hactions
      exact ⟨index, action, s, ⟨_, _, actions, hlocate, hmatching, hat, hbefore, hlive'⟩, hends⟩

/-- A dispatch that is cancelled by one of its actions fails when the action ends, and nothing is
stored. -/
lemma dispatch_of_starts (hservices : scope.services.OfSession) {engine : Engine σ M}
    (hactions : d.Only Request.StaysInside engine.registry m)
    (hfetch : Registry.blueprint d (Message.type m) (engine.delivery false) = .ok b fetched)
    (hstarts : d.Starts scope b m fetched index action s)
    (hcancelled : (Run.final ((action m).run scope s)).cancelled = true) :
    ∃ e, d.dispatch options scope m (engine.delivery false) =
        .error e (Run.final ((action m).run scope s)) ∧
      (Run.final ((action m).run scope s)).store = engine.store ∧
      ((e = .cancelled ∧ ∀ failure, Run.result ((action m).run scope s) = .error failure →
          failure.recover? = some .cancelled) ∨
        ∃ failure cause, Run.result ((action m).run scope s) = .error failure ∧
          failure.recover? ≠ some .cancelled ∧
          e = .actionFailed b.definition.name (Message.type m).name index cause) := by
  have hdispatch : d.dispatch options scope m (engine.delivery false) =
      (d.script options b m).run scope fetched := by rw [dispatch_apply, hfetch]
  have hstore : ∀ e s', (d.script options b m).run scope fetched = .error e s' →
      s'.store = engine.store := by
    intro e s' hfailed
    obtain ⟨registry, log, rfl, horigin⟩ := Registry.blueprint_eq_ok hfetch
    exact script_error hservices (hactions.of_origin horigin) hfailed
  have hscript := script_of_starts options hstarts hcancelled
  rw [hdispatch]
  cases hended : (action m).run scope s with
  | ok u s' =>
    rw [hended] at hscript
    exact ⟨_, hscript, hstore _ _ hscript, .inl ⟨rfl, nofun⟩⟩
  | error failure s' =>
    rw [hended] at hscript
    refine ⟨_, hscript, hstore _ _ hscript, ?_⟩
    rcases EngineError.ofAction_cases b.definition.name (Message.type m).name index failure with
      ⟨hrecover, hcause⟩ | ⟨hrecover, cause, hcause⟩
    · left
      refine ⟨hcause, ?_⟩
      rintro _ ⟨⟩
      exact hrecover
    · exact .inr ⟨failure, cause, rfl, hrecover, hcause⟩

/-- A dispatch that was cancelled before has looked up nothing and run nothing, whatever the
repository is and whatever the actions are: it fails with the lack of its blueprint, of a
correlation id or of a service, and else with the cancellation. A dispatch that is cancelled while
an action runs fails when the action ends, with the failure of the action if it has one of its own,
and no other action starts. In neither case is anything stored; and in no other way does a dispatch
come to be cancelled. -/
theorem dispatch_cancelled (d : Definition σ M) (options : DispatchOptions) (scope : Scope σ M)
    (engine : Engine σ M) (m : M) (hservices : scope.services.OfSession)
    (hactions : d.Only Request.StaysInside engine.registry m) :
    (∃ e s, d.dispatch options scope m (engine.delivery true) = .error e s ∧
      s.store = engine.store ∧ s.session = {} ∧ s.app = engine.app ∧
      (∀ scope' : Scope σ M,
        scope'.services.contains .repository = scope.services.contains .repository →
        scope'.services.contains .unitOfWork = scope.services.contains .unitOfWork →
        d.dispatch options scope' m (engine.delivery true) = .error e s) ∧
      (Registry.blueprint d (Message.type m) (engine.delivery true) = .error e s ∨
        ∃ b, Registry.blueprint d (Message.type m) (engine.delivery true) = .ok b s ∧
          e = b.declined scope m ∧ d.RunsNoAction options scope b m s)) ∧
    (∀ b fetched index action s,
      Registry.blueprint d (Message.type m) (engine.delivery false) = .ok b fetched →
      d.Starts scope b m fetched index action s →
      let ended := (action m).run scope s
      (Run.final ended).cancelled = true →
      ∃ e, d.dispatch options scope m (engine.delivery false) = .error e (Run.final ended) ∧
        (Run.final ended).store = engine.store ∧
        (∀ later action' s', index < later → ¬ d.Starts scope b m fetched later action' s') ∧
        ((e = .cancelled ∧ ∀ failure, Run.result ended = .error failure →
            failure.recover? = some .cancelled) ∨
          ∃ failure cause, Run.result ended = .error failure ∧
            failure.recover? ≠ some .cancelled ∧
            e = .actionFailed b.definition.name (Message.type m).name index cause)) ∧
    ((Run.final (d.dispatch options scope m (engine.delivery false))).cancelled = true →
      ∃ b fetched index action s,
        Registry.blueprint d (Message.type m) (engine.delivery false) = .ok b fetched ∧
        d.Starts scope b m fetched index action s ∧
        (Run.final ((action m).run scope s)).cancelled = true) := by
  refine ⟨?before, ?during, ?only⟩
  case before =>
    have hdispatch : ∀ scope' : Scope σ M, d.dispatch options scope' m (engine.delivery true) = _ :=
      fun scope' => dispatch_of_cancelled rfl
    rcases Registry.blueprint_cases d (Message.type m) (engine.delivery true) with
      ⟨e, hfetch⟩ | ⟨b, registry, log, hfetch, -⟩
    · refine ⟨e, engine.delivery true, ?_, rfl, rfl, rfl, fun scope' _ _ => ?_, .inl hfetch⟩
      · rw [hdispatch, hfetch]
      · rw [hdispatch, hfetch]
    · refine ⟨b.declined scope m, { engine.delivery true with registry, log }, ?_, rfl, rfl, rfl,
        fun scope' hrepository hunit => ?_, .inr ⟨b, hfetch, rfl, fun f => ?_⟩⟩
      · rw [hdispatch, hfetch]
      · rw [hdispatch, hfetch]
        simp only [Blueprint.declined, hrepository, hunit]
      · have hlocate : ∀ b' : Blueprint σ M d.states, (d.locate b' m).run scope
            { engine.delivery true with registry, log } = .error (b'.declined scope m) _ :=
          fun b' => locate_of_cancelled rfl
        simp only [script_eq, run_bind, hlocate]
        rfl
  case during =>
    intro b fetched index action s hfetch hstarts ended hcancelled
    obtain ⟨e, hdispatch, hstore, hcause⟩ :=
      dispatch_of_starts hservices hactions hfetch hstarts hcancelled
    exact ⟨e, hdispatch, hstore, fun _ _ _ => hstarts.not_later hcancelled, hcause⟩
  case only =>
    intro hcancelled
    rw [dispatch_apply] at hcancelled
    rcases Registry.blueprint_cases d (Message.type m) (engine.delivery false) with
      ⟨e, hfetch⟩ | ⟨b, registry, log, hfetch, -⟩
    · rw [hfetch] at hcancelled
      cases hcancelled
    · rw [hfetch] at hcancelled
      obtain ⟨index, action, s, hstarts, hends⟩ := script_cancelled hservices rfl hcancelled
      exact ⟨b, _, index, action, s, hfetch, hstarts, hends⟩

end Definition

namespace Stopping
open Pipeline

/-- Counts and succeeds. -/
def count : Action Nat JobMessage := fun _ => Script.modify (· + 1)

/-- Counts, stages a row and cancels its own delivery. -/
def stop : Action Nat JobMessage := fun m =>
  (Script.modify (· + 1)).bind fun _ =>
    (Script.ask (.add (.fresh ⟨m.id, "worker"⟩ 0))).bind fun _ => Script.ask .cancel

/-- A workflow whose startup rule is cancelled by the second of its three actions. -/
def definition : Definition Nat JobMessage where
  id := ⟨"stopping", 0⟩
  states := stages
  rules := [
    .start Event.start.type stages.processing [count, stop, count],
    .correlate Event.start.type JobMessage.id]

/-- An engine that has seen commits before. -/
def engine : Engine Nat JobMessage where
  store := { table := .ofList [⟨⟨⟨"6", "stopping"⟩, 1, 4⟩, 10, 20⟩], commits := 2 }
  app := 0

/-- A scope without other definitions. -/
def scope : Scope Nat JobMessage := ⟨.ofSession [], fun _ _ => throw .cancelled⟩

/-- The actions of the workflow neither commit nor forward. -/
lemma only (m : JobMessage) : definition.Only Request.StaysInside engine.registry m := by
  have hcount : (count m).Only Request.StaysInside := fun _ => trivial
  have hstop : (stop m).Only Request.StaysInside :=
    fun _ => (Script.Only.ask trivial).bind fun _ => Script.Only.ask trivial
  refine Definition.Only.of_rules ?_ rfl
  refine List.forall_mem_cons.2 ⟨?_, List.forall_mem_cons.2 ⟨nofun, nofun⟩⟩
  refine List.forall_mem_cons.2 ⟨hcount, List.forall_mem_cons.2 ⟨hstop, ?_⟩⟩
  exact List.forall_mem_cons.2 ⟨hcount, nofun⟩

/-- A cancelled start of a job runs no action, and one that is cancelled by its second action ends
there, with two actions counted; the store is what it was after both. -/
theorem stopping_cancelled :
    scope.services.OfSession ∧ (∀ m, definition.Only Request.StaysInside engine.registry m) ∧
      (∃ e s, definition.dispatch {} scope ⟨.start, "7"⟩ (engine.delivery true) = .error e s ∧
        s.store = engine.store ∧ s.app = 0) ∧
      ∃ s, definition.dispatch {} scope ⟨.start, "7"⟩ (engine.delivery false) =
        .error .cancelled s ∧ s.store = engine.store ∧ s.app = 2 := by
  have hservices : scope.services.OfSession := (Services.complete_ofSession []).ofSession
  obtain ⟨hbefore, hduring, honly⟩ :=
    Definition.dispatch_cancelled definition {} scope engine ⟨.start, "7"⟩ hservices (only _)
  have hcancelled : (Run.final (definition.dispatch {} scope ⟨.start, "7"⟩
      (engine.delivery false))).cancelled = true := by decide +kernel
  have hcounted : (Run.final (definition.dispatch {} scope ⟨.start, "7"⟩
      (engine.delivery false))).app = 2 := by decide +kernel
  have hname : (match Run.result (definition.dispatch {} scope ⟨.start, "7"⟩
      (engine.delivery false)) with
    | .ok _ => ""
    | .error e => e.name) = "Cancelled" := by decide +kernel
  refine ⟨hservices, only, ?_, ?_⟩
  · obtain ⟨e, s, hdispatch, hstore, -, happ, -⟩ := hbefore
    exact ⟨e, s, hdispatch, hstore, happ⟩
  · obtain ⟨b, fetched, index, action, s, hfetch, hstarts, hends⟩ := honly hcancelled
    obtain ⟨e, hdispatch, hstore, -, hcause⟩ :=
      hduring b fetched index action s hfetch hstarts hends
    rw [hdispatch] at hcounted hname
    obtain ⟨rfl, -⟩ | ⟨failure, cause, -, -, rfl⟩ := hcause
    · exact ⟨_, hdispatch, hstore, hcounted⟩
    · exact absurd hname (show "ActionFailed" ≠ "Cancelled" by decide)

end Stopping

end Saga
