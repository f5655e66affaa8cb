import Mathlib.Data.Nat.Find
import Saga.Pipeline
import Saga.Proofs.Script.Actions

/-!
# How a rule ends

What a script does to the world is the sequence of its acts: the changes of the application that it
makes and the requests that it asks for. The acts of a rule are those of its actions, each action
once and in order, with a look at the cancellation before each, up to the first action that is not
begun or that fails (`runActions_sequenced`). A startup rule and a transition rule go through their
actions alike and differ in the state that they end with (`Blueprint.rules_sequenced`).
-/

namespace Saga

variable {σ M : Type}

/-- What a script can do on its way. -/
inductive Act (σ M : Type) where
  | change (f : σ → σ)
  | request (r : Request M)

/-- What a script does in a delivery, in order. -/
def Script.acts {ε α : Type} (scope : Scope σ M) :
    Script σ M ε α → Delivery σ M → List (Act σ M)
  | done _, _ => []
  | fail _, _ => []
  | app change next, s => .change change :: (next s.app).acts scope { s with app := change s.app }
  | request r next, s =>
    .request r ::
      match scope.perform r s with
      | .ok answer s' => (next (.ok answer)).acts scope s'
      | .error e s' => (next (.error e)).acts scope s'

/-- What is told of a failure: the engine error by itself, if the notes hide one, and else the
failure as it is. -/
def Failure.bare (failure : Failure) : Failure :=
  match failure.recover? with
  | some cause => .engine cause
  | none => failure

namespace Script

variable {ε ε' α β : Type} (scope : Scope σ M)

/-- One script after another does what both do. -/
lemma acts_bind (script : Script σ M ε α) (f : α → Script σ M ε β) (s : Delivery σ M) :
    (script.bind f).acts scope s = script.acts scope s ++
      match script.run scope s with
      | .ok a s' => (f a).acts scope s'
      | .error _ _ => [] := by
  induction script generalizing s with
  | done a => rfl
  | fail e => rfl
  | app change next ih => exact congrArg _ (ih s.app { s with app := change s.app })
  | request r next ih =>
    simp only [Script.bind, acts, Script.run, List.cons_append]
    cases scope.perform r s with
    | ok answer s' => exact congrArg _ (ih (.ok answer) s')
    | error e s' => exact congrArg _ (ih (.error e) s')

/-- Putting the failures in other terms changes nothing of what is done. -/
lemma acts_mapError (f : ε → ε') (script : Script σ M ε α) (s : Delivery σ M) :
    (script.mapError f).acts scope s = script.acts scope s := by
  induction script generalizing s with
  | done a => rfl
  | fail e => rfl
  | app change next ih => exact congrArg _ (ih s.app { s with app := change s.app })
  | request r next ih =>
    simp only [mapError, acts]
    cases scope.perform r s with
    | ok answer s' => exact congrArg _ (ih (.ok answer) s')
    | error e s' => exact congrArg _ (ih (.error e) s')

/-- Checking for cancellation asks one thing, whether the delivery is cancelled. -/
lemma acts_checkLive (s : Delivery σ M) :
    (checkLive : Script σ M EngineError Unit).acts scope s = [.request .isCancelled] := by
  have hasked : scope.perform .isCancelled s = .ok s.cancelled s := rfl
  rw [checkLive, acts_bind, run_ask, hasked]
  cases hcancelled : s.cancelled <;> simp [ask, acts, ofExcept, hasked, hcancelled]

end Script

section Sequence

variable (scope : Scope σ M) (m : M) (actions : List (Action σ M)) (s : Delivery σ M)

/-- The delivery in which action `i` is due: those before it have run, each once and in order. -/
def due (i : Nat) : Delivery σ M :=
  (actions.take i).foldl (fun s action => Run.final ((action m).run scope s)) s

/-- Whether a rule that comes to action `i` gets no further: the delivery is cancelled when the
action is due, or the action fails. -/
def Stops (i : Nat) : Prop :=
  ∃ action, actions[i]? = some action ∧ ((due scope m actions s i).cancelled = true ∨
    ∃ failure, Run.result ((action m).run scope (due scope m actions s i)) = .error failure)

/-- Whether action `i` is the first at which a rule stops. -/
def StopsFirst (i : Nat) : Prop :=
  Stops scope m actions s i ∧ ∀ j < i, ¬ Stops scope m actions s j

/-- What a rule does for action `i`: it looks whether the delivery was cancelled and runs the action
from where it is due. -/
def actsOf (i : Nat) : List (Act σ M) :=
  match actions[i]? with
  | some action => .request .isCancelled :: (action m).acts scope (due scope m actions s i)
  | none => []

/-- What a rule does for the actions before action `i`. -/
def actsBefore (i : Nat) : List (Act σ M) :=
  (List.range i).flatMap (actsOf scope m actions s)

variable (definition message : String) {α : Type} (a : α)

/-- How a rule that leads to `a` runs through its actions, and what it does on the way. -/
inductive Sequenced :
    EStateM.Result EngineError (Delivery σ M) α → List (Act σ M) → Prop where
  /-- All actions have succeeded. -/
  | completed :
    (∀ i, ¬ Stops scope m actions s i) →
    Sequenced (.ok a (due scope m actions s actions.length))
      (actsBefore scope m actions s actions.length)
  /-- The delivery was cancelled when the action was due, and the action is not begun. -/
  | cancelledWhenDue {i} :
    StopsFirst scope m actions s i →
    (due scope m actions s i).cancelled = true →
    Sequenced (.error .cancelled (due scope m actions s i))
      (actsBefore scope m actions s i ++ [.request .isCancelled])
  /-- The action has failed with a cancellation, whatever notes were put over it. -/
  | cancelledByAction {i action failure s'} :
    StopsFirst scope m actions s i →
    (due scope m actions s i).cancelled = false →
    actions[i]? = some action →
    (action m).run scope (due scope m actions s i) = .error failure s' →
    failure.recover? = some .cancelled →
    Sequenced (.error .cancelled s')
      (actsBefore scope m actions s i ++
        .request .isCancelled :: (action m).acts scope (due scope m actions s i))
  /-- The action has failed with anything else. -/
  | failed {i action failure s'} :
    StopsFirst scope m actions s i →
    (due scope m actions s i).cancelled = false →
    actions[i]? = some action →
    (action m).run scope (due scope m actions s i) = .error failure s' →
    failure.recover? ≠ some .cancelled →
    Sequenced (.error (.actionFailed definition message i failure.bare) s')
      (actsBefore scope m actions s i ++
        .request .isCancelled :: (action m).acts scope (due scope m actions s i))

end Sequence

section Actions

variable {scope : Scope σ M} {m : M} {actions : List (Action σ M)} {s : Delivery σ M} {i : Nat}
  {definition message : String} {action : Action σ M}

/-- A failure that wraps a cancellation is told as a cancellation. -/
lemma EngineError.ofAction_of_cancelled {failure : Failure} (index : Nat)
    (h : failure.recover? = some .cancelled) :
    ofAction definition message index failure = .cancelled := by
  rw [ofAction, h]

/-- Any other failure is told as that of the action, with its place in the rule. -/
lemma EngineError.ofAction_of_ne {failure : Failure} (index : Nat)
    (h : failure.recover? ≠ some .cancelled) :
    ofAction definition message index failure =
      .actionFailed definition message index failure.bare := by
  unfold ofAction Failure.bare
  cases hrecover : failure.recover? with
  | none => rfl
  | some cause =>
    cases cause with
    | cancelled => exact absurd hrecover h
    | _ => rfl

/-- Where a rule stops at all, there is a first action at which it does. -/
lemma exists_stopsFirst (h : ∃ i, Stops scope m actions s i) :
    ∃ i, StopsFirst scope m actions s i := by
  classical
  exact ⟨Nat.find h, Nat.find_spec h, fun j hj => Nat.find_min h hj⟩

/-- An action leaves the next one in the state that it ended in itself. -/
lemma due_succ (hat : actions[i]? = some action) :
    due scope m actions s (i + 1) = Run.final ((action m).run scope (due scope m actions s i)) := by
  unfold due
  rw [List.take_add_one, hat, List.foldl_append]
  rfl

/-- What is done before the next action is what was done before this one, the check for
cancellation, and what this one does. -/
lemma actsBefore_succ (hat : actions[i]? = some action) :
    actsBefore scope m actions s (i + 1) = actsBefore scope m actions s i ++
      .request .isCancelled :: (action m).acts scope (due scope m actions s i) := by
  unfold actsBefore
  rw [List.range_succ, List.flatMap_append, List.flatMap_singleton, actsOf, hat]

/-- An action at which a rule does not stop is begun and succeeds. -/
lemma ok_of_not_stops (hat : actions[i]? = some action) (h : ¬ Stops scope m actions s i) :
    (due scope m actions s i).cancelled = false ∧
      (action m).run scope (due scope m actions s i) = .ok () (due scope m actions s (i + 1)) := by
  have hlive : (due scope m actions s i).cancelled ≠ true :=
    fun hcancelled => h ⟨action, hat, .inl hcancelled⟩
  refine ⟨Bool.eq_false_iff.2 hlive, ?_⟩
  rw [due_succ hat]
  cases hrun : (action m).run scope (due scope m actions s i) with
  | ok u s' => rfl
  | error failure s' => exact absurd ⟨action, hat, .inr ⟨failure, by rw [hrun]; rfl⟩⟩ h

/-- In a live delivery the first action is preceded by a check, and the rest of the rule goes on
only when it succeeds. -/
lemma acts_runActions_cons {index : Nat} {rest : List (Action σ M)} (hlive : s.cancelled = false) :
    (runActions definition message m index (action :: rest)).acts scope s =
      .request .isCancelled :: ((action m).acts scope s ++
        match (action m).run scope s with
        | .ok () s' => (runActions definition message m (index + 1) rest).acts scope s'
        | .error _ _ => []) := by
  show (Script.checkLive.bind fun _ => ((action m).mapError _).bind fun _ =>
    runActions definition message m (index + 1) rest).acts scope s = _
  rw [Script.acts_bind, Script.acts_checkLive, Script.run_checkLive, hlive]
  simp only [Bool.false_eq_true, if_false, List.singleton_append]
  rw [Script.acts_bind, Script.acts_mapError, Script.run_mapError]
  cases (action m).run scope s <;> rfl

variable (definition message)

/-- Once the delivery was cancelled no action is begun. -/
lemma runActions_cons_of_cancelled (scope : Scope σ M) (m : M) (index : Nat) (action : Action σ M)
    (rest : List (Action σ M)) (hcancelled : s.cancelled = true) :
    (runActions definition message m index (action :: rest)).run scope s = .error .cancelled s ∧
      (runActions definition message m index (action :: rest)).acts scope s =
        [.request .isCancelled] := by
  show (Script.checkLive.bind _).run scope s = _ ∧ (Script.checkLive.bind _).acts scope s = _
  rw [Script.run_bind, Script.acts_bind, Script.acts_checkLive,
    run_checkLive_of_cancelled hcancelled]
  exact ⟨rfl, rfl⟩

/-- The actions before the first stop have run, each once and in order. -/
lemma runActions_take (hi : i ≤ actions.length) (hgoes : ∀ j < i, ¬ Stops scope m actions s j) :
    (runActions definition message m 0 (actions.take i)).run scope s =
        .ok () (due scope m actions s i) ∧
      (runActions definition message m 0 (actions.take i)).acts scope s =
        actsBefore scope m actions s i := by
  induction i with
  | zero => exact ⟨rfl, rfl⟩
  | succ i ih =>
    have hat : actions[i]? = some actions[i] := List.getElem?_eq_getElem hi
    obtain ⟨hrun, hacts⟩ := ih (Nat.le_of_lt hi) fun j hj => hgoes j (Nat.lt_succ_of_lt hj)
    obtain ⟨hlive, hok⟩ := ok_of_not_stops hat (hgoes i (Nat.lt_succ_self i))
    have htake : actions.take (i + 1) = actions.take i ++ [actions[i]] := by
      rw [List.take_add_one, hat]
      rfl
    rw [htake, runActions_append, Script.run_bind, Script.acts_bind, hrun, hacts]
    dsimp only
    rw [run_runActions_cons hlive, acts_runActions_cons hlive, hok, actsBefore_succ hat]
    exact ⟨rfl, congrArg _ (congrArg _ (List.append_nil _))⟩

/-- A rule that gets as far as action `i` goes on from where the action is due. -/
lemma runActions_of_due (hat : actions[i]? = some action)
    (hgoes : ∀ j < i, ¬ Stops scope m actions s j) :
    let later := runActions definition message m i (action :: actions.drop (i + 1))
    (runActions definition message m 0 actions).run scope s =
        later.run scope (due scope m actions s i) ∧
      (runActions definition message m 0 actions).acts scope s =
        actsBefore scope m actions s i ++ later.acts scope (due scope m actions s i) := by
  obtain ⟨hlt, -⟩ := List.getElem?_eq_some_iff.1 hat
  obtain ⟨hrun, hacts⟩ := runActions_take definition message (Nat.le_of_lt hlt) hgoes
  intro later
  rw [runActions_split definition message m 0 hat, Nat.zero_add, Script.run_bind,
    Script.acts_bind, hrun, hacts]
  exact ⟨rfl, rfl⟩

/-- A rule goes through its actions in order, whatever it leads to. -/
lemma runActions_sequenced {α : Type} (a : α) :
    let script := (runActions definition message m 0 actions).bind fun _ => Script.done a
    Sequenced scope m actions s definition message a (script.run scope s)
      (script.acts scope s) := by
  intro script
  have hrun : script.run scope s = _ := Script.run_bind ..
  have hacts : script.acts scope s = _ := Script.acts_bind ..
  rw [hrun, hacts]
  by_cases hstops : ∃ i, Stops scope m actions s i
  case neg =>
    have hgoes : ∀ i, ¬ Stops scope m actions s i := fun i hi => hstops ⟨i, hi⟩
    obtain ⟨hall, hdone⟩ := runActions_take definition message
      (Nat.le_refl actions.length) fun j _ => hgoes j
    rw [List.take_length] at hall hdone
    rw [hall, hdone]
    dsimp only [Script.acts]
    rw [List.append_nil]
    exact .completed hgoes
  case pos =>
    obtain ⟨i, hfirst⟩ := exists_stopsFirst hstops
    obtain ⟨⟨action, hat, hstop⟩, hgoes⟩ := id hfirst
    obtain ⟨hlater, hdone⟩ := runActions_of_due definition message hat hgoes
    rw [hlater, hdone]
    cases hlive : (due scope m actions s i).cancelled with
    | true =>
      obtain ⟨hended, hchecked⟩ := runActions_cons_of_cancelled definition
        message scope m i action (actions.drop (i + 1)) hlive
      rw [hended, hchecked]
      dsimp only
      rw [List.append_nil]
      exact .cancelledWhenDue hfirst hlive
    | false =>
      obtain hcancelled | ⟨failure, hfailure⟩ := hstop
      · cases hlive.symm.trans hcancelled
      rw [run_runActions_cons hlive, acts_runActions_cons hlive]
      cases hended : (action m).run scope (due scope m actions s i) with
      | ok u s' =>
        rw [hended] at hfailure
        cases hfailure
      | error failure s' =>
        dsimp only
        rw [List.append_nil, List.append_nil]
        by_cases hrecover : failure.recover? = some .cancelled
        · rw [EngineError.ofAction_of_cancelled i hrecover]
          exact .cancelledByAction hfirst hlive hat hended hrecover
        · rw [EngineError.ofAction_of_ne i hrecover]
          exact .failed hfirst hlive hat hended hrecover

end Actions

namespace Blueprint

variable [Message M] {S : StateSet}

/-- A rule that a message triggers goes through its actions in order, each of them once, up to the
first that is due when the delivery was cancelled, or that fails. Without such an action a startup
rule ends with its state, and a transition rule with its target or else in the state in which the
instance was. With one, the rule fails: it was cancelled, if the delivery was when the action was
due or if the failure of the action hides a cancellation; and otherwise the action has failed, which
is told with the definition, the message type, the number of the action and the cause, an engine
error without the notes that were put over it. -/
theorem rules_sequenced (b : Blueprint σ M S) (scope : Scope σ M) (m : M) (s : Delivery σ M) :
    let definition := b.definition.name
    let message := (Message.type m).name
    (∀ rule, b.starts.get? (Message.type m) = some rule →
      Sequenced scope m rule.actions s definition message (some rule.target)
        ((b.start m).run scope s) ((b.start m).acts scope s)) ∧
    ∀ state rule, b.transfers.get? (state, Message.type m) = some rule →
      Sequenced scope m rule.actions s definition message (rule.target.getD state)
        ((b.transfer state m).run scope s) ((b.transfer state m).acts scope s) := by
  intro definition message
  refine ⟨fun rule hrule => ?start, fun state rule hrule => ?transfer⟩
  case start =>
    have hstart : b.start m = (runActions definition message m 0 rule.actions).bind fun _ =>
        Script.done (some rule.target) := by
      simp only [Blueprint.start, hrule]
      rfl
    rw [hstart]
    exact runActions_sequenced definition message _
  case transfer =>
    have htransfer : b.transfer state m =
        (runActions definition message m 0 rule.actions).bind fun _ =>
          Script.done (rule.target.getD state) := by
      simp only [Blueprint.transfer, hrule]
      rfl
    rw [htransfer]
    exact runActions_sequenced definition message _

end Blueprint

namespace Faltering
open Pipeline

/-- Counts and succeeds. -/
def count : Action Nat JobMessage := fun _ => Script.modify (· + 1)

/-- Cancels the delivery and succeeds. -/
def halt : Action Nat JobMessage := fun _ => Script.ask .cancel

/-- Fails with a conflict under two notes. -/
def refuse : Action Nat JobMessage := fun m =>
  .fail (.context "while charging" (.context "on the ledger"
    (.engine (.conflict ⟨m.id, "ledger"⟩ 1 2))))

/-- A startup rule that is cancelled on its way. -/
def startRule : StartRule Nat JobMessage stages := ⟨stages.processing, [count, halt, count]⟩

/-- A transition rule that fails on its way. -/
def transferRule : TransferRule Nat JobMessage stages := ⟨none, [count, count, refuse, count]⟩

/-- Rules that do not come to their ends. -/
def blueprint : Blueprint Nat JobMessage stages where
  definition := ⟨"faltering", 0⟩
  starts := Keyed.empty.insert Event.start.type startRule
  transfers := Keyed.empty.insert (stages.processing, Event.complete.type) transferRule
  selectors := Keyed.empty

/-- A scope without other definitions. -/
def scope : Scope Nat JobMessage := ⟨.ofSession [], fun _ _ => throw .cancelled⟩

/-- A live delivery that has counted nothing yet. -/
def delivery : Delivery Nat JobMessage := Engine.delivery { app := 0 } false

/-- The startup rule is cancelled after its second action, and the third action of the transition
rule fails; neither comes to its last one. -/
theorem faltering_sequenced :
    let started := (blueprint.start ⟨.start, "7"⟩).run scope delivery
    let moved := (blueprint.transfer stages.processing ⟨.complete, "7"⟩).run scope delivery
    blueprint.starts.get? Event.start.type = some startRule ∧
      blueprint.transfers.get? (stages.processing, Event.complete.type) = some transferRule ∧
      Sequenced scope ⟨.start, "7"⟩ startRule.actions delivery "faltering" Event.start.type.name
        (some stages.processing) started ((blueprint.start ⟨.start, "7"⟩).acts scope delivery) ∧
      Run.result started = .error .cancelled ∧ (Run.final started).app = 1 ∧
      Sequenced scope ⟨.complete, "7"⟩ transferRule.actions delivery "faltering"
        Event.complete.type.name stages.processing moved
        ((blueprint.transfer stages.processing ⟨.complete, "7"⟩).acts scope delivery) ∧
      Run.result moved = .error (.actionFailed "faltering" Event.complete.type.name 2
        (.engine (.conflict ⟨"7", "ledger"⟩ 1 2))) ∧ (Run.final moved).app = 2 := by
  have hstarts := (blueprint.rules_sequenced scope ⟨.start, "7"⟩ delivery).1 startRule rfl
  have htransfers := (blueprint.rules_sequenced scope ⟨.complete, "7"⟩ delivery).2
    stages.processing transferRule rfl
  exact ⟨rfl, rfl, hstarts, rfl, rfl, htransfers, rfl, rfl⟩

end Faltering

end Saga
