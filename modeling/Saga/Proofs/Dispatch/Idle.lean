import Saga.Proofs.Dispatch.Stages

/-!
# Dispatches without a rule

A message without a rule for what was found runs no action. That is said by exchanging the actions:
with any others in their place the dispatch comes out the same (`RunsNoAction`). An outcome without
a write comes from no rule (`react_silent`), so its dispatch ran none.
-/

namespace Saga

variable {σ M : Type}

/-- The blueprint with other actions in the place of its own. -/
def Blueprint.withActions {S : StateSet} (b : Blueprint σ M S)
    (f : List (Action σ M) → List (Action σ M)) : Blueprint σ M S where
  definition := b.definition
  starts := b.starts.mapValues fun rule => { rule with actions := f rule.actions }
  transfers := b.transfers.mapValues fun rule => { rule with actions := f rule.actions }
  selectors := b.selectors

namespace Definition
open Script

variable [Message M] {d : Definition σ M} {options : DispatchOptions} {scope : Scope σ M}
  {b : Blueprint σ M d.states} {m : M} {key : InstanceKey}

/-- Whether a dispatch comes out as it does whatever the actions of its rules are, so that none of
them ran. -/
def RunsNoAction (d : Definition σ M) (options : DispatchOptions) (scope : Scope σ M)
    (b : Blueprint σ M d.states) (m : M) (s : Delivery σ M) : Prop :=
  ∀ f, (d.script options (b.withActions f) m).run scope s = (d.script options b m).run scope s

/-- Whether no rule is there for what was found. -/
def Unmatched (d : Definition σ M) (b : Blueprint σ M d.states) (m : M) :
    Option InstanceRecord → Prop
  | none => b.starts.get? (Message.type m) = none
  | some record => ∀ state, d.states.ofOrdinal? record.state = some state →
    b.transfers.get? (state, Message.type m) = none

/-- Without a rule the actions of the blueprint do not matter. -/
lemma react_withActions {found : Option InstanceRecord} (h : d.Unmatched b m found)
    (f : List (Action σ M) → List (Action σ M)) :
    d.react options (b.withActions f) key m found = d.react options b key m found := by
  cases found with
  | none =>
    have hnone : (b.withActions f).starts.get? (Message.type m) = none := by
      have hstarts : b.starts.get? (Message.type m) = none := h
      simp [Blueprint.withActions, hstarts]
    show d.begin (b.withActions f) key m = d.begin b key m
    rw [begin_of_none hnone, begin_of_none h]
  | some record =>
    show d.moveOn options (b.withActions f) key m record = d.moveOn options b key m record
    cases hstate : d.states.ofOrdinal? record.state with
    | none => rw [moveOn_of_unknown hstate, moveOn_of_unknown hstate]
    | some state =>
      have hnone : (b.withActions f).transfers.get? (state, Message.type m) = none := by
        simp [Blueprint.withActions, h state hstate]
      rw [moveOn_of_none hstate hnone, moveOn_of_none hstate (h state hstate)]

/-- A dispatch that ends without a write has found no rule. -/
lemma unmatched_of_spared {e : Errand σ M} {found : Option InstanceRecord}
    {outcome : Outcome e.definition.states} (h : e.Spared key found outcome) :
    e.definition.Unmatched e.blueprint e.message found := by
  cases h with
  | dropped hrule => exact hrule
  | ignored hstate hrule _ =>
    intro other hother
    cases hstate.symm.trans hother
    exact hrule

/-- An outcome without a write comes from no rule, and the reaction left nothing but a log entry. -/
lemma react_silent {found : Option InstanceRecord} {s s' : Delivery σ M}
    {outcome : Outcome d.states}
    (h : (d.react options b key m found).run scope s = .ok outcome s')
    (hwrites : outcome.writes = false) :
    d.Unmatched b m found ∧ ∃ text, s' = s.logged .debug .dispatcher text := by
  rcases react_ends (e := ⟨d, options, b, m⟩) h with ⟨write, s₁, hearned, -⟩ | ⟨hspared, htext⟩
  · cases hearned.writes.symm.trans hwrites
  · exact ⟨unmatched_of_spared hspared, htext⟩

/-- Once an instance was located that no rule is there for, no action runs. -/
lemma runsNoAction_of_unmatched {s s' : Delivery σ M}
    {located : InstanceKey × Option InstanceRecord}
    (hlocate : (d.locate b m).run scope s = .ok located s') (h : d.Unmatched b m located.2) :
    d.RunsNoAction options scope b m s := by
  intro f
  have hlocate' : (d.locate (b.withActions f) m).run scope s = .ok located s' := hlocate
  simp only [script_eq, run_bind, hlocate, hlocate', react_withActions h]

end Definition

end Saga
