import Saga.Pipeline
import Saga.Router
import Saga.Proofs.Dispatch.Stages
import Saga.Proofs.Script.Effects
import Saga.Proofs.Storage.Rounds
import Saga.Proofs.StateSet

/-!
# Ordinals there and back

A dispatch reads the state of an instance off the ordinal in its row and writes the ordinal of a
state back. Whatever the actions in between did, the write that it has earned is the last one of the
batch that it commits (`Definition.script_concludes`), so the row comes to have the ordinal of that
write. The ordinals of a set stand for its states one to one, so a state that did not change is
written back as it was read (`ordinals_round_trip`).
-/

namespace Saga

variable {σ M : Type}

/-- The ordinal in the row under a key as a delivery sees it. -/
def Delivery.ordinal? (s : Delivery σ M) (key : InstanceKey) : Option Int32 :=
  (s.session.read s.store key).map InstanceRecord.state

namespace Outcome

variable {S : StateSet}

/-- The correlation id of the instance. -/
def correlationId : Outcome S → String
  | started id _ => id
  | transferred id _ _ => id
  | ignored id _ _ => id
  | dropped id => id

/-- The state in which the instance was found, if there was one. -/
def source? : Outcome S → Option S.State
  | started _ _ => none
  | transferred _ source _ => some source
  | ignored _ state _ => some state
  | dropped _ => none

/-- The state in which the instance was left, if there is one. -/
def target? : Outcome S → Option S.State
  | started _ state => some state
  | transferred _ _ target => some target
  | ignored _ state _ => some state
  | dropped _ => none

end Outcome

variable [Message M]

namespace Errand

variable {e : Errand σ M} {key : InstanceKey} {found : Option InstanceRecord} {write : StagedWrite}
  {outcome : Outcome e.definition.states}

/-- A write is earned by decoding what was found, and it encodes what becomes of that. -/
lemma Earned.ordinals (h : e.Earned key found write outcome) :
    outcome.correlationId = key.correlationId ∧
      found.map InstanceRecord.state = outcome.source?.map StateSet.State.ordinal ∧
      some write.record.state = outcome.target?.map StateSet.State.ordinal := by
  cases h with
  | started _ => exact ⟨rfl, rfl, rfl⟩
  | transferred hstate _ =>
    exact ⟨rfl, congrArg some (StateSet.ordinal_of_ofOrdinal? hstate).symm, rfl⟩
  | kept hstate _ _ =>
    exact ⟨rfl, congrArg some (StateSet.ordinal_of_ofOrdinal? hstate).symm, rfl⟩

/-- What is spared was decoded, and stays. -/
lemma Spared.ordinals (h : e.Spared key found outcome) :
    outcome.correlationId = key.correlationId ∧
      found.map InstanceRecord.state = outcome.source?.map StateSet.State.ordinal ∧
      outcome.target? = outcome.source? ∧ outcome.writes = false := by
  cases h with
  | dropped _ => exact ⟨rfl, rfl, rfl, rfl⟩
  | ignored hstate _ _ =>
    exact ⟨rfl, congrArg some (StateSet.ordinal_of_ofOrdinal? hstate).symm, rfl, rfl⟩

/-- A state that did not change is written back with the very record that was found. -/
lemma Earned.eq_update (h : e.Earned key found write outcome)
    (hsame : outcome.target? = outcome.source?) :
    ∃ record, found = some record ∧ write = .update record := by
  have hback : ∀ {record : InstanceRecord} {state : e.definition.states.State},
      e.definition.states.ofOrdinal? record.state = some state →
        record.withState state.ordinal = record := by
    intro record state hstate
    rw [StateSet.ordinal_of_ofOrdinal? hstate]
    rfl
  cases h with
  | started _ => cases hsame
  | @transferred record state rule hstate _ =>
    have htarget : rule.target.getD state = state := Option.some.inj hsame
    refine ⟨record, rfl, ?_⟩
    rw [htarget, hback hstate]
  | @kept record state hstate _ _ =>
    refine ⟨record, rfl, ?_⟩
    rw [hback hstate]

/-- How a dispatch with a given outcome has concluded: what it earned was the last write of the
batch that it has committed, or it was spared and has left the session and the store alone. -/
inductive Concludes (e : Errand σ M) (key : InstanceKey) (outcome : Outcome e.definition.states)
    (s s' : Delivery σ M) : Prop where
  | committed {write before now writes messages} :
    e.Earned key (s.session.read s.store key) write outcome →
    s'.session = .closed →
    Store.commit before now (writes ++ [write]) messages = .ok s'.store →
    Concludes e key outcome s s'
  | spared :
    e.Spared key (s.session.read s.store key) outcome →
    s'.session = s.session →
    s'.store = s.store →
    Concludes e key outcome s s'

/-- The outcome names the instance that the dispatch was about. -/
lemma Concludes.correlationId_eq {s s' : Delivery σ M} (h : e.Concludes key outcome s s') :
    outcome.correlationId = key.correlationId := by
  cases h with
  | committed hearned _ _ => exact hearned.ordinals.1
  | spared hspared _ _ => exact hspared.ordinals.1

end Errand

namespace Definition
open Script

variable {scope : Scope σ M} {s s' : Delivery σ M}

/-- The script of a dispatch that succeeds concludes, whatever its actions did. -/
lemma script_concludes (hservices : scope.services.OfSession) {e : Errand σ M}
    {outcome : Outcome e.definition.states}
    (h : (e.definition.script e.options e.blueprint e.message).run scope s = .ok outcome s') :
    ∃ key, e.Concerns key ∧ e.Concludes key outcome s s' := by
  obtain ⟨key, s₁, hid, hname, -, hreact, hconclude⟩ := script_eq_ok hservices h
  refine ⟨key, ⟨hid, hname⟩, ?_⟩
  rcases react_ends hreact with ⟨write, s₀, hearned, hstaging⟩ | ⟨hspared, text, rfl⟩
  · rcases conclude_run hservices hearned.writes s₁ with
      ⟨error, hfails⟩ | ⟨s₂, hcommit, hcommits⟩
    · cases hfails.symm.trans hconclude
    · cases hcommits.symm.trans hconclude
      rcases Delivery.commit_cases (s := s₁) with ⟨error, hfails⟩ | ⟨store, log, -, hstore, hdone⟩
      · cases hfails.symm.trans hcommit
      · cases hdone.symm.trans hcommit
        -- The batch is what the actions have staged, and after it what was earned.
        rw [run_staging_writes hservices hstaging] at hstore
        exact .committed hearned rfl hstore
  · rw [conclude_of_not_writes hspared.ordinals.2.2.2] at hconclude
    cases hconclude
    exact .spared hspared rfl rfl

/-- A dispatch that succeeds concludes for the instance that its outcome tells of. -/
lemma dispatch_concludes (hservices : scope.services.OfSession) {d : Definition σ M}
    {options : DispatchOptions} {m : M} {outcome : Outcome d.states}
    (h : d.dispatch options scope m s = .ok outcome s') :
    ∃ b : Blueprint σ M d.states,
      Errand.Concludes ⟨d, options, b, m⟩ ⟨outcome.correlationId, d.id.name⟩ outcome s s' := by
  rw [dispatch_apply] at h
  rcases Registry.blueprint_cases d (Message.type m) s with
    ⟨error, hfetch⟩ | ⟨b, registry, log, hfetch, -⟩
  · rw [hfetch] at h
    cases h
  · rw [hfetch] at h
    obtain ⟨⟨id, name⟩, ⟨-, hname⟩, hconcludes⟩ :=
      script_concludes hservices (e := ⟨d, options, b, m⟩) h
    obtain rfl : outcome.correlationId = id := hconcludes.correlationId_eq
    obtain rfl : name = d.id.name := hname
    refine ⟨b, ?_⟩
    cases hconcludes with
    | committed hearned hclosed hcommit => exact .committed hearned hclosed hcommit
    | spared hspared hsession hstore => exact .spared hspared hsession hstore

end Definition

/-- The ordinals of a set stand for its states one to one: a state is found for an ordinal just if
it has that ordinal, and none is found just if no member has it. So a dispatch that succeeds,
whatever its actions did, has read the ordinal of the state that it found and leaves the ordinal of
the state that it came to. If these are the same state, the row keeps its ordinal; and if it was
written at all, then last with the very record that was found. -/
theorem ordinals_round_trip :
    (∀ (S : StateSet) (ordinal : Int32),
      (∀ state : S.State, S.ofOrdinal? ordinal = some state ↔ state.ordinal = ordinal) ∧
      (S.ofOrdinal? ordinal = none ↔ ∀ member ∈ S.members, member.ordinal ≠ ordinal)) ∧
    ∀ (d : Definition σ M) (options : DispatchOptions) (scope : Scope σ M) (m : M)
      (s s' : Delivery σ M) (outcome : Outcome d.states),
      scope.services.OfSession → d.dispatch options scope m s = .ok outcome s' →
      let key : InstanceKey := ⟨outcome.correlationId, d.id.name⟩
      s.ordinal? key = outcome.source?.map StateSet.State.ordinal ∧
      s'.ordinal? key = outcome.target?.map StateSet.State.ordinal ∧
      (outcome.target? = outcome.source? →
        s'.ordinal? key = s.ordinal? key ∧
        (outcome.writes = true → ∃ record before now writes messages,
          s.session.read s.store key = some record ∧
          Store.commit before now (writes ++ [.update record]) messages = .ok s'.store)) := by
  refine ⟨fun S ordinal => ⟨fun state => StateSet.ofOrdinal?_eq_some_iff,
    StateSet.ofOrdinal?_eq_none_iff⟩, ?_⟩
  intro d options scope m s s' outcome hservices h
  obtain ⟨b, hconcludes⟩ := Definition.dispatch_concludes hservices h
  intro key
  cases hconcludes with
  | @committed write before now writes messages hearned hclosed hcommit =>
    obtain ⟨-, hsource, htarget⟩ := hearned.ordinals
    have hkey : write.record.key = key :=
      hearned.record_key fun _ hfound => Session.key_of_read hfound
    have hlast :
        ((writes ++ [write]).filter fun w => w.record.key = key).getLast? = some write := by
      simp [hkey]
    obtain ⟨row, hrow, hstate⟩ := Store.state_of_commit hcommit hlast
    -- A closed session has nothing staged, so it reads the committed row.
    have hafter : s'.ordinal? key = some write.record.state := by
      rw [Delivery.ordinal?, hclosed, ← hstate]
      show ((s'.store.get? key).map StoredInstance.record).map InstanceRecord.state = _
      rw [hrow]
      rfl
    refine ⟨hsource, hafter.trans htarget, fun hsame => ⟨?_, fun _ => ?_⟩⟩
    · rw [hafter, htarget, hsame]
      exact hsource.symm
    · obtain ⟨record, hfound, rfl⟩ := hearned.eq_update hsame
      exact ⟨record, before, now, writes, messages, hfound, hcommit⟩
  | spared hspared hsession hstore =>
    obtain ⟨-, hsource, hsame, hsilent⟩ := hspared.ordinals
    have hafter : s'.ordinal? key = s.ordinal? key := by
      rw [Delivery.ordinal?, hsession, hstore]
      rfl
    refine ⟨hsource, ?_, fun _ => ⟨hafter, fun hwrites => ?_⟩⟩
    · rw [hafter, hsame]
      exact hsource
    · cases hsilent.symm.trans hwrites

namespace Extremes
open Pipeline

/-- Levels at both ends of the ordinals and one in between. -/
def levels : StateSet where
  name := "Level"
  members := [⟨"Low", -2147483648⟩, ⟨"Mid", -3⟩, ⟨"High", 2147483647⟩]

/-- The level at the lowest ordinal. -/
def levels.low : levels.State := ⟨⟨"Low", -2147483648⟩, by decide⟩

/-- A workflow that stays low, though an action of its rule has the row go up. -/
def definition : Definition Unit JobMessage where
  id := ⟨"levels", 0⟩
  states := levels
  rules := [
    .on levels.low Event.heartbeat.type [
      .action fun m => Script.update ⟨⟨m.id, "levels"⟩, 2147483647, 4⟩],
    .correlate Event.heartbeat.type JobMessage.id]

/-- An engine with a low instance, whose store lets a batch update it twice. -/
def engine : Engine Unit JobMessage where
  store := {
    options := { optimisticConcurrency := false }
    table := .ofList [⟨⟨⟨"7", "levels"⟩, -2147483648, 4⟩, 10, 20⟩] }
  app := ()

/-- A router that knows the workflow. -/
def router : Router Unit JobMessage where
  definitions := [definition]

/-- The lowest ordinal stands for its level and zero for none. The heartbeat of a low instance finds
that ordinal in its row and writes it back last, with the record that it has found. -/
theorem low_comes_back :
    let key : InstanceKey := ⟨"7", "levels"⟩
    levels.ofOrdinal? (-2147483648) = some levels.low ∧ levels.ofOrdinal? 0 = none ∧
      router.scope.services.OfSession ∧
      ∃ s, definition.dispatch {} router.scope ⟨.heartbeat, "7"⟩ (engine.delivery false) =
          .ok (.transferred "7" levels.low levels.low) s ∧
        (engine.delivery false).ordinal? key = some (-2147483648) ∧
        s.ordinal? key = some (-2147483648) ∧
        ∃ before now writes messages, Store.commit before now
          (writes ++ [.update ⟨key, -2147483648, 4⟩]) messages = .ok s.store := by
  intro key
  have hservices := router.services_ofSession
  have hresult : (Run.result (definition.dispatch {} router.scope ⟨.heartbeat, "7"⟩
      (engine.delivery false))).toOption = some (.transferred "7" levels.low levels.low) := by
    decide +kernel
  obtain ⟨hordinals, hdispatch⟩ := ordinals_round_trip (σ := Unit) (M := JobMessage)
  obtain ⟨hfound, -⟩ := hordinals levels (-2147483648)
  obtain ⟨-, hnone⟩ := hordinals levels 0
  refine ⟨(hfound levels.low).2 rfl, hnone.2 (by decide), hservices, ?_⟩
  cases h : definition.dispatch {} router.scope ⟨.heartbeat, "7"⟩ (engine.delivery false) with
  | error e s =>
    rw [h] at hresult
    cases hresult
  | ok outcome s =>
    rw [h] at hresult
    cases hresult
    obtain ⟨hsource, htarget, hsame⟩ := hdispatch definition {} router.scope _ _ s _ hservices h
    obtain ⟨-, hback⟩ := hsame rfl
    obtain ⟨record, before, now, writes, messages, hread, hcommit⟩ := hback rfl
    have hrecord : (engine.delivery false).session.read (engine.delivery false).store key =
        some ⟨key, -2147483648, 4⟩ := by decide +kernel
    cases hrecord.symm.trans hread
    exact ⟨s, rfl, hsource, htarget, before, now, writes, messages, hcommit⟩

end Extremes

end Saga
