import Saga.Proofs.Blueprint.Compile
import Saga.Proofs.Builder.Registration
import Saga.Proofs.Sequences

/-!
# Clauses as calls

Compiling a definition makes the calls of its clauses one after the other, up to the first that is
rejected. A definition that compiles had none rejected, and the calls on a clause come after the one
that registers it, so the tables of its blueprint are what the calls come to
(`Definition.Compiles.of_compile`).
-/

namespace Saga
open Builder

variable {σ M : Type} {S : StateSet}

/-- The call that a part of a transition clause stands for. -/
def RuleStep.call (source : S.State) (trigger : MessageType) : RuleStep σ M S → Builder.Call σ M S
  | action run => .execute source trigger run
  | moveTo target => .transitionTo source trigger target

/-- The calls that a clause stands for. -/
def Rule.calls : Rule σ M S → List (Builder.Call σ M S)
  | start trigger initial actions =>
    .startWhen trigger initial :: actions.map (.executeOnStart trigger)
  | on source trigger steps => .onWhen source trigger :: steps.map (RuleStep.call source trigger)
  | correlate message select => [.correlate message select]

/-- The calls that a definition stands for. -/
def Definition.calls (d : Definition σ M) : List (Builder.Call σ M d.states) :=
  d.rules.flatMap Rule.calls

namespace Builder

variable {b b' b'' : Builder σ M S} {call : Call σ M S} {calls rest : List (Call σ M S)}

/-- Makes calls one after the other, up to the first that is rejected. -/
def performAll (calls : List (Call σ M S)) : Build σ M S Unit := calls.forM Call.perform

/-- Two lists of calls are performed one after the other. -/
lemma performAll_append :
    performAll (calls ++ rest) = (performAll calls >>= fun _ => performAll rest) := by
  induction calls with
  | nil => rfl
  | cons call calls ih =>
    show (call.perform >>= fun _ => performAll (calls ++ rest)) =
      (call.perform >>= fun _ => performAll calls) >>= fun _ => performAll rest
    rw [ih, bind_assoc]

/-- Performing one call for each item is a loop over the items. -/
lemma performAll_map {α : Type} (call : α → Call σ M S) (items : List α) :
    performAll (items.map call) = items.forM fun item => (call item).perform := by
  induction items with
  | nil => rfl
  | cons item rest ih =>
    show ((call item).perform >>= fun _ => performAll (rest.map call)) = _
    rw [ih]
    rfl

/-- To take a clause is to make its calls. -/
lemma take_eq (rule : Rule σ M S) : take rule = performAll rule.calls := by
  cases rule with
  | start trigger initial actions =>
    show _ = startWhen trigger initial >>= fun _ => performAll _
    rw [performAll_map]
    rfl
  | on source trigger steps =>
    show _ = onWhen source trigger >>= fun _ => performAll _
    rw [performAll_map]
    have hstep : takeStep source trigger =
        fun step : RuleStep σ M S => (step.call source trigger).perform := by
      funext step
      cases step <;> rfl
    rw [← hstep]
    rfl
  | correlate message select =>
    show correlate message select = correlate message select >>= fun _ => pure ()
    rw [bind_pure_unit]

/-- Taking clauses is performing the calls that they stand for. -/
lemma forM_take (rules : List (Rule σ M S)) :
    rules.forM take = performAll (rules.flatMap Rule.calls) := by
  induction rules with
  | nil => rfl
  | cons rule rest ih =>
    show (take rule >>= fun _ => rest.forM take) = _
    rw [ih, take_eq, List.flatMap_cons, performAll_append]

/-- Calls go on from where the first one is accepted. -/
lemma performAll_cons_of_accepts (h : b.Accepts call b') :
    performAll (call :: rest) b = performAll rest b' :=
  EStateM.bind_of_ok h.perform

/-- Calls end where one claims a slot that is taken. -/
lemma performAll_cons_of_taken {slot : Slot S} (hslot : call.slot? = some slot)
    (htaken : b.Taken slot) :
    performAll (call :: rest) b = .error (slot.duplicate b.definition.name) b :=
  EStateM.bind_of_error (perform_of_taken hslot htaken)

/-- Where calls all succeed the first one was accepted. -/
lemma performAll_cons_eq_ok (h : performAll (call :: rest) b = .ok () b'') :
    ∃ b', b.Accepts call b' ∧ performAll rest b' = .ok () b'' := by
  rcases call.perform_cases b with ⟨slot, hslot, htaken⟩ | ⟨b', haccepts⟩
  · cases (performAll_cons_of_taken hslot htaken).symm.trans h
  · exact ⟨b', haccepts, (performAll_cons_of_accepts haccepts).symm.trans h⟩

/-- Calls that all succeed were all accepted. -/
lemma Takes.of_performAll (h : performAll calls b = .ok () b') : Takes b calls calls b' := by
  induction calls generalizing b with
  | nil =>
    cases h
    exact .nil
  | cons call rest ih =>
    obtain ⟨next, haccepts, hrest⟩ := performAll_cons_eq_ok h
    exact .accepted haccepts (ih hrest)

/-- Calls on a clause are chained when its rule is there. -/
lemma chained_map_append {α : Type} {call : α → Call σ M S} {slot : Slot S}
    (hstands : ∀ (b : Builder σ M S) item, b.Taken slot → b.Stands (call item)) (items : List α)
    (htaken : b.Taken slot) (h : performAll (items.map call ++ rest) b = .ok () b'')
    (hrest : ∀ b', performAll rest b' = .ok () b'' → b'.Chained rest) :
    b.Chained (items.map call ++ rest) := by
  induction items generalizing b with
  | nil => exact hrest b h
  | cons item items ih =>
    obtain ⟨b', haccepts, hnext⟩ := performAll_cons_eq_ok h
    have htaken' := (haccepts.taken_iff (hstands b item htaken) slot).2 (.inl htaken)
    exact (chained_of_accepts haccepts).2 ⟨hstands b item htaken, ih htaken' hnext⟩

/-- A clause is handed out by its first call, and the others are on it. -/
lemma chained_calls_append {rule : Rule σ M S}
    (h : performAll (rule.calls ++ rest) b = .ok () b'')
    (hrest : ∀ b', performAll rest b' = .ok () b'' → b'.Chained rest) :
    b.Chained (rule.calls ++ rest) := by
  cases rule with
  | start trigger initial actions =>
    obtain ⟨b', haccepts, hnext⟩ := performAll_cons_eq_ok h
    have htaken := (haccepts.taken_iff trivial (.start trigger)).2 (.inr rfl)
    refine (chained_of_accepts haccepts).2 ⟨trivial, ?_⟩
    exact chained_map_append (fun _ _ => id) actions htaken hnext hrest
  | on source trigger steps =>
    obtain ⟨b', haccepts, hnext⟩ := performAll_cons_eq_ok h
    have htaken := (haccepts.taken_iff trivial (.transfer source trigger)).2 (.inr rfl)
    refine (chained_of_accepts haccepts).2 ⟨trivial, chained_map_append ?_ steps htaken hnext hrest⟩
    intro b step htaken
    cases step <;> exact htaken
  | correlate message select =>
    obtain ⟨b', haccepts, hnext⟩ := performAll_cons_eq_ok h
    exact (chained_of_accepts haccepts).2 ⟨trivial, hrest b' hnext⟩

/-- The calls of clauses that all succeed form a chain. -/
lemma chained_flatMap {rules : List (Rule σ M S)}
    (h : performAll (rules.flatMap Rule.calls) b = .ok () b'') :
    b.Chained (rules.flatMap Rule.calls) := by
  induction rules generalizing b with
  | nil => trivial
  | cons rule rest ih =>
    rw [List.flatMap_cons] at h ⊢
    exact chained_calls_append h fun _ => ih

end Builder

/-- Whether the tables of a blueprint are what the calls of a definition come to. -/
structure Definition.Compiles (d : Definition σ M) (b : Blueprint σ M d.states) : Prop where
  definition : b.definition = d.id
  starts : ∀ t, b.starts.get? t = startRule? d.calls t
  transfers : ∀ source t, b.transfers.get? (source, t) = transferRule? d.calls source t
  selectors : ∀ t, b.selectors.get? t = d.calls.findSome? (Builder.Call.selector? t)

/-- The blueprint of a definition has the rules that its clauses describe. -/
lemma Definition.Compiles.of_compile {d : Definition σ M} {b : Blueprint σ M d.states}
    (h : d.compile = .ok b) : d.Compiles b := by
  unfold Definition.compile at h
  rw [forM_take] at h
  split at h
  · next u built hrun =>
    obtain ⟨-, rfl⟩ := build_eq_ok_iff.1 h
    have hcalls : performAll d.calls { definition := d.id } = .ok () built := hrun
    have htakes := Takes.of_performAll hcalls
    have hchained : Chained { definition := d.id } d.calls := chained_flatMap hcalls
    exact ⟨htakes.definition_eq, htakes.get?_starts hchained, htakes.get?_transfers hchained,
      fun t => (htakes.get?_selectors t).trans Option.none_or⟩
  · cases h

end Saga
