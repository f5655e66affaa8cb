import Saga.Proofs.Dispatch.Fetch
import Saga.Proofs.Interleaving.Errand
import Saga.Proofs.Sequences

/-!
# The stages of a dispatch

A dispatch fetches its blueprint, locates the instance, reacts to what it found and concludes. The
first two and the last say completely what they do to a delivery: locating reads and changes nothing
(`locate_run`), and concluding commits, or fails and changes nothing (`conclude_run`). In between
run the actions of a rule, about which only their own requests can tell. What is done around them
depends on what was found and on whether there is a rule for it: five cases, with one equation for
each. So a reaction that succeeds ends by staging the write that it has earned, whatever its actions
did, or has none (`react_ends`).
-/

namespace Saga.Definition
open Script

variable {σ M : Type} [Message M] {d : Definition σ M} {options : DispatchOptions}
  {scope : Scope σ M} {b : Blueprint σ M d.states} {m : M}

/-- A dispatch fetches its blueprint and runs the script made with it. -/
lemma dispatch_apply (s : Delivery σ M) :
    d.dispatch options scope m s =
      match Registry.blueprint d (Message.type m) s with
      | .ok b s' => (d.script options b m).run scope s'
      | .error e s' => .error e s' := by
  cases hfetch : Registry.blueprint d (Message.type m) s with
  | ok b s' => exact EStateM.bind_of_ok hfetch
  | error e s' => exact EStateM.bind_of_error hfetch

/-- A handler comes to what its dispatch comes to, with the outcome summed up. -/
lemma handle_apply (s : Delivery σ M) :
    d.handle options scope m s =
      match d.dispatch options scope m s with
      | .ok outcome s' => .ok outcome.summary s'
      | .error e s' => .error e s' := by
  cases hdispatch : d.dispatch options scope m s with
  | ok outcome s' => exact EStateM.bind_of_ok hdispatch
  | error e s' => exact EStateM.bind_of_error hdispatch

/-- The script of a dispatch is its stages one after the other. -/
lemma script_eq :
    d.script options b m =
      (d.locate b m).bind fun located =>
        (d.react options b located.1 m located.2).bind d.conclude := rfl

/-- Locating an instance fails or finds what the session reads under the key, and changes nothing
either way. -/
lemma locate_run (h : scope.services.OfSession) (s : Delivery σ M) :
    (∃ e, (d.locate b m).run scope s = .error e s) ∨
      ∃ key : InstanceKey, b.correlate m = .ok key.correlationId ∧ key.definition = d.id.name ∧
        s.cancelled = false ∧
        (d.locate b m).run scope s = .ok (key, s.session.read s.store key) s := by
  unfold Definition.locate
  simp only [bind_eq, run_bind, run_ofExcept, run_require, run_checkLive]
  cases hcorrelate : b.correlate m with
  | error e => exact .inl ⟨e, rfl⟩
  | ok id =>
    cases scope.services.get? .repository with
    | none => exact .inl ⟨_, rfl⟩
    | some _ =>
      cases scope.services.get? .unitOfWork with
      | none => exact .inl ⟨_, rfl⟩
      | some _ =>
        cases hlive : s.cancelled with
        | true =>
          left
          refine ⟨.cancelled, ?_⟩
          simp only [hlive]
          rfl
        | false =>
          rcases run_find (ε := EngineError) h ⟨id, d.id.name⟩ s with ⟨e, hfind⟩ | ⟨-, hfind⟩
          · left
            refine ⟨e, ?_⟩
            simp [hlive, hfind]
          · right
            refine ⟨⟨id, d.id.name⟩, rfl, rfl, rfl, ?_⟩
            simp [hlive, hfind, pure_eq]

/-- With its services there, a live dispatch with a correlation id locates what the session reads.
-/
lemma locate_run_of_live (h : scope.services.Complete) {select : M → String}
    (hselect : b.selectors.get? (Message.type m) = some select) (hid : isBlank (select m) = false)
    {s : Delivery σ M} (hlive : s.cancelled = false) :
    (d.locate b m).run scope s =
      .ok (⟨select m, d.id.name⟩, s.session.read s.store ⟨select m, d.id.name⟩) s := by
  have hcorrelate : b.correlate m = .ok (select m) := by
    simp [Blueprint.correlate, hselect, hid]
  unfold Definition.locate
  simp only [bind_eq, run_bind, run_ofExcept, run_require, run_checkLive, hcorrelate, h.repository,
    h.unitOfWork, hlive, Bool.false_eq_true, if_false, run_find_of_live h _ _ hlive]
  rfl

/-- Locating an instance only looks up and asks what is there. -/
lemma locate_only {p : Request M → Prop} (hfind : ∀ key, p (.find key))
    (hrequire : ∀ service, p (.require service)) (hcheck : p .isCancelled) :
    (d.locate b m).Only p := by
  unfold Definition.locate
  refine (Only.ofExcept _).bind fun id => ?_
  refine (Only.ask (hrequire _)).bind fun _ => ?_
  refine (Only.ask (hrequire _)).bind fun _ => ?_
  refine (Only.checkLive hcheck).bind fun _ => ?_
  exact (Only.ask (hfind _)).bind fun found => trivial

section React

variable {key : InstanceKey} {record : InstanceRecord} {state : d.states.State}

/-- A message that starts nothing is dropped. -/
lemma begin_of_none (h : b.starts.get? (Message.type m) = none) :
    d.begin b key m =
      (report .debug .dispatcher
        s!"{key.path}: {(Message.type m).name} starts nothing, dropped").bind fun _ =>
          done (.dropped key.correlationId) := by
  simp only [Definition.begin, Blueprint.start, h]
  rfl

/-- A startup rule runs its actions and has the instance added. -/
lemma begin_of_some {rule : StartRule σ M d.states}
    (h : b.starts.get? (Message.type m) = some rule) :
    d.begin b key m =
      (runActions b.definition.name (Message.type m).name m 0 rule.actions).bind fun _ =>
        staging (.add (.fresh key rule.target.ordinal))
          (.started key.correlationId rule.target) := by
  simp only [Definition.begin, Blueprint.start, h, bind_eq, pure_eq, bind_assoc, done_bind]
  rfl

/-- A row with an ordinal of no state fails. -/
lemma moveOn_of_unknown (h : d.states.ofOrdinal? record.state = none) :
    d.moveOn options b key m record = fail (.unknownStateOrdinal d.id.name record.state) := by
  simp only [Definition.moveOn, Definition.decodeState, h]
  rfl

/-- A transition rule runs its actions and has the row updated. -/
lemma moveOn_of_some {rule : TransferRule σ M d.states}
    (hstate : d.states.ofOrdinal? record.state = some state)
    (h : b.transfers.get? (state, Message.type m) = some rule) :
    d.moveOn options b key m record =
      (runActions b.definition.name (Message.type m).name m 0 rule.actions).bind fun _ =>
        staging (.update (record.withState (rule.target.getD state).ordinal))
          (.transferred key.correlationId state (rule.target.getD state)) := by
  have hhandles : b.handlesTransfer state (Message.type m) = true := by
    simp [Blueprint.handlesTransfer, Keyed.contains, h]
  simp only [Definition.moveOn, Definition.decodeState, hstate, Script.ofExcept, bind_eq, done_bind,
    Blueprint.transfer, h, hhandles, if_true, pure_eq, bind_assoc]
  rfl

/-- Without a transition rule the row is written back as it is, or left alone. -/
lemma moveOn_of_none (hstate : d.states.ofOrdinal? record.state = some state)
    (h : b.transfers.get? (state, Message.type m) = none) :
    d.moveOn options b key m record =
      (report .debug .dispatcher
        s!"{key.path}: no rule for {(Message.type m).name} in state {state.name}").bind fun _ =>
          if options.persistUnchanged then
            staging (.update (record.withState state.ordinal))
              (.ignored key.correlationId state true)
          else done (.ignored key.correlationId state false) := by
  have hhandles : b.handlesTransfer state (Message.type m) = false := by
    simp [Blueprint.handlesTransfer, Keyed.contains, h]
  simp only [Definition.moveOn, Definition.decodeState, hstate, Script.ofExcept, bind_eq, done_bind,
    Blueprint.transfer, h, hhandles, Bool.false_eq_true, if_false, pure_eq]
  rfl

/-- A reaction that succeeds ends by staging what it has earned, or it has nothing to write and
leaves nothing but a log entry. -/
lemma react_ends {e : Errand σ M} {found : Option InstanceRecord} {s s' : Delivery σ M}
    {outcome : Outcome e.definition.states}
    (h : (e.definition.react e.options e.blueprint key e.message found).run scope s =
      .ok outcome s') :
    (∃ write s₁, e.Earned key found write outcome ∧
      (staging write outcome : Script σ M EngineError _).run scope s₁ = .ok outcome s') ∨
    e.Spared key found outcome ∧ ∃ text, s' = s.logged .debug .dispatcher text := by
  cases found with
  | none =>
    simp only [react] at h
    cases hrule : e.blueprint.starts.get? (Message.type e.message) with
    | none =>
      rw [begin_of_none hrule] at h
      cases h
      exact .inr ⟨.dropped hrule, _, rfl⟩
    | some rule =>
      rw [begin_of_some hrule] at h
      obtain ⟨_, s₁, -, h⟩ := run_bind_eq_ok scope h
      cases run_staging_eq_ok h
      exact .inl ⟨_, s₁, .started hrule, h⟩
  | some record =>
    simp only [react] at h
    cases hstate : e.definition.states.ofOrdinal? record.state with
    | none =>
      rw [moveOn_of_unknown hstate] at h
      cases h
    | some state =>
      cases hrule : e.blueprint.transfers.get? (state, Message.type e.message) with
      | none =>
        rw [moveOn_of_none hstate hrule] at h
        obtain ⟨_, s₁, hreport, h⟩ := run_bind_eq_ok scope h
        cases hreport
        cases hpersist : e.options.persistUnchanged with
        | true =>
          rw [hpersist, if_pos rfl] at h
          cases run_staging_eq_ok h
          exact .inl ⟨_, _, .kept hstate hrule hpersist, h⟩
        | false =>
          rw [hpersist, if_neg nofun] at h
          cases h
          exact .inr ⟨.ignored hstate hrule hpersist, _, rfl⟩
      | some rule =>
        rw [moveOn_of_some hstate hrule] at h
        obtain ⟨_, s₁, -, h⟩ := run_bind_eq_ok scope h
        cases run_staging_eq_ok h
        exact .inl ⟨_, s₁, .transferred hstate hrule, h⟩

end React

omit [Message M] in
/-- An outcome without a write needs no commit. -/
lemma conclude_of_not_writes {outcome : Outcome d.states} (h : outcome.writes = false) :
    d.conclude outcome = done outcome := by
  simp [Definition.conclude, h, pure_eq]

omit [Message M] in
/-- Concluding an outcome with a write fails and changes nothing, or commits. -/
lemma conclude_run (h : scope.services.OfSession) {outcome : Outcome d.states}
    (hwrites : outcome.writes = true) (s : Delivery σ M) :
    (∃ e, (d.conclude outcome).run scope s = .error e s) ∨
      ∃ s', Delivery.commit s = .ok () s' ∧
        (d.conclude outcome).run scope s =
          .ok outcome (s'.logged .debug .dispatcher s!"{d.id.name}: {outcome.summary}") := by
  simp only [Definition.conclude, hwrites, if_true, bind_eq, run_bind]
  rcases run_commit (ε := EngineError) h s with ⟨e, hcommit⟩ | ⟨s', hs', hcommit⟩
  · left
    refine ⟨e, ?_⟩
    simp [hcommit]
  · right
    refine ⟨s', hs', ?_⟩
    simp [hcommit, pure_eq]

omit [Message M] in
/-- A dispatch that concludes has the outcome with which it went into its conclusion. -/
lemma eq_of_conclude {outcome outcome' : Outcome d.states} {s s' : Delivery σ M}
    (h : (d.conclude outcome).run scope s = .ok outcome' s') : outcome = outcome' := by
  unfold Definition.conclude at h
  split at h
  · obtain ⟨_, s₁, -, h⟩ := run_bind_eq_ok scope h
    obtain ⟨_, s₂, -, h⟩ := run_bind_eq_ok scope h
    cases h
    rfl
  · cases h
    rfl

/-- A script of a dispatch that succeeds has located what the session reads under its key, has
reacted to that and has concluded the outcome. -/
lemma script_eq_ok (h : scope.services.OfSession) {outcome : Outcome d.states}
    {s s' : Delivery σ M} (hrun : (d.script options b m).run scope s = .ok outcome s') :
    ∃ key s₁, b.correlate m = .ok key.correlationId ∧ key.definition = d.id.name ∧
      (d.locate b m).run scope s = .ok (key, s.session.read s.store key) s ∧
      (d.react options b key m (s.session.read s.store key)).run scope s = .ok outcome s₁ ∧
      (d.conclude outcome).run scope s₁ = .ok outcome s' := by
  rw [script_eq] at hrun
  obtain ⟨located, s₀, hlocate, hrest⟩ := run_bind_eq_ok scope hrun
  obtain ⟨outcome', s₁, hreact, hconclude⟩ := run_bind_eq_ok scope hrest
  rcases locate_run (d := d) (b := b) (m := m) h s with ⟨e, hfails⟩ | ⟨key, hid, hname, -, hfinds⟩
  · cases hfails.symm.trans hlocate
  · cases hfinds.symm.trans hlocate
    obtain rfl := eq_of_conclude hconclude
    exact ⟨key, s₁, hid, hname, hfinds, hreact, hconclude⟩

end Saga.Definition
