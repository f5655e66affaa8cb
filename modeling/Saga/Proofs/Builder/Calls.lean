import Saga.Proofs.Script.Laws

/-!
# Calls on a builder

The rules of a definition come in one call at a time. A call may claim a slot, and is accepted only
while nobody has the slot: the start of a message type, its rule in a state, the target of that
rule, or its selector. What an accepted call does to the builder is a relation (`Builder.Accepts`),
and a call that is rejected does nothing (`Call.perform_cases`). A sequence of calls that goes on
after errors is then a relation as well (`Builder.Takes`), to which later theorems refer.

A clause is handed out by the call that registers its rule, so a call on a clause comes only when
its rule is there (`Builder.Chained`).
-/

namespace Saga.Builder

variable {σ M : Type} {S : StateSet}

/-- A call on a builder, or on a clause that the builder has handed out. -/
inductive Call (σ M : Type) (S : StateSet) where
  | startWhen (trigger : MessageType) (initial : S.State)
  | executeOnStart (trigger : MessageType) (run : Action σ M)
  | onWhen (source : S.State) (trigger : MessageType)
  | execute (source : S.State) (trigger : MessageType) (run : Action σ M)
  | transitionTo (source : S.State) (trigger : MessageType) (target : S.State)
  | correlate (message : MessageType) (select : M → String)

/-- What can be registered once. -/
inductive Slot (S : StateSet) where
  | start (trigger : MessageType)
  | transfer (source : S.State) (trigger : MessageType)
  | target (source : S.State) (trigger : MessageType)
  | selector (message : MessageType)
  deriving DecidableEq

/-- The error of a call that registers a slot for a second time. -/
def Slot.duplicate (definition : String) : Slot S → BuildError
  | start trigger => .duplicateStart definition trigger.name
  | transfer source trigger => .duplicateTransfer definition source.name trigger.name
  | target source trigger => .targetAlreadySet definition source.name trigger.name
  | selector message => .duplicateCorrelation definition message.name

namespace Call

/-- Makes the call. -/
def perform : Call σ M S → Build σ M S Unit
  | startWhen trigger initial => Builder.startWhen trigger initial
  | executeOnStart trigger run => Builder.executeOnStart trigger run
  | onWhen source trigger => Builder.onWhen source trigger
  | execute source trigger run => Builder.execute source trigger run
  | transitionTo source trigger target => Builder.transitionTo source trigger target
  | correlate message select => Builder.correlate message select

/-- The slot that a call registers. To attach an action registers none. -/
def slot? : Call σ M S → Option (Slot S)
  | startWhen trigger _ => some (.start trigger)
  | onWhen source trigger => some (.transfer source trigger)
  | transitionTo source trigger _ => some (.target source trigger)
  | correlate message _ => some (.selector message)
  | executeOnStart _ _ | execute _ _ _ => none

/-- The message type that a call registers a rule for. -/
def observes? : Call σ M S → Option MessageType
  | startWhen trigger _ | onWhen _ trigger => some trigger
  | _ => none

/-- The message type that a call registers a selector for. -/
def selects? : Call σ M S → Option MessageType
  | correlate message _ => some message
  | _ => none

end Call

/-- Whether a slot is registered. -/
def Taken (b : Builder σ M S) : Slot S → Prop
  | .start trigger => b.starts.contains trigger
  | .transfer source trigger => b.transfers.contains (source, trigger)
  | .target source trigger => (b.transfers.get? (source, trigger)).any fun r => r.target.isSome
  | .selector message => b.selectors.contains message

/-- Whether the rule of the clause that a call is on was registered. -/
def Stands (b : Builder σ M S) : Call σ M S → Prop
  | .executeOnStart trigger _ => b.Taken (.start trigger)
  | .execute source trigger _ | .transitionTo source trigger _ => b.Taken (.transfer source trigger)
  | _ => True

/-- The builder after some calls, whatever they are answered. -/
def after (b : Builder σ M S) (calls : List (Call σ M S)) : Builder σ M S :=
  calls.foldl (fun b call => Run.final (call.perform b)) b

/-- The calls that are accepted. -/
def accepted (b : Builder σ M S) : List (Call σ M S) → List (Call σ M S)
  | [] => []
  | call :: rest =>
    match call.perform b with
    | .ok _ b' => call :: accepted b' rest
    | .error _ b' => accepted b' rest

/-- Whether calls on clauses are made only on those that were handed out. -/
def Chained (b : Builder σ M S) : List (Call σ M S) → Prop
  | [] => True
  | call :: rest => b.Stands call ∧ Chained (Run.final (call.perform b)) rest

/-- What an accepted call makes of a builder. -/
inductive Accepts (b : Builder σ M S) : Call σ M S → Builder σ M S → Prop where
  | startWhen {trigger initial} : ¬ b.Taken (.start trigger) →
    Accepts b (.startWhen trigger initial) { b with
      starts := b.starts.insert trigger { target := initial }
      observed := b.observed.insert trigger }
  | executeOnStart {trigger run} :
    Accepts b (.executeOnStart trigger run) { b with
      starts := b.starts.modify trigger fun r => { r with actions := r.actions ++ [run] } }
  | onWhen {source trigger} : ¬ b.Taken (.transfer source trigger) →
    Accepts b (.onWhen source trigger) { b with
      transfers := b.transfers.insert (source, trigger) {}
      observed := b.observed.insert trigger }
  | execute {source trigger run} :
    Accepts b (.execute source trigger run) { b with
      transfers := b.transfers.modify (source, trigger) fun r =>
        { r with actions := r.actions ++ [run] } }
  | transitionTo {source trigger target} : ¬ b.Taken (.target source trigger) →
    Accepts b (.transitionTo source trigger target) { b with
      transfers := b.transfers.modify (source, trigger) fun r => { r with target := some target } }
  | correlate {message select} : ¬ b.Taken (.selector message) →
    Accepts b (.correlate message select) { b with
      selectors := b.selectors.insert message select }

/-- Which of some calls a builder accepts when they are made one after the other, and what they make
of it. -/
inductive Takes : Builder σ M S → List (Call σ M S) → List (Call σ M S) → Builder σ M S → Prop where
  | nil {b} : Takes b [] [] b
  | accepted {b b' b'' call rest made} :
    b.Accepts call b' → Takes b' rest made b'' → Takes b (call :: rest) (call :: made) b''
  | rejected {b b' call slot rest made} :
    call.slot? = some slot → b.Taken slot → Takes b rest made b' → Takes b (call :: rest) made b'

variable {b b' : Builder σ M S} {call : Call σ M S} {calls made rest : List (Call σ M S)}

/-- A call whose slot is taken is rejected, and leaves the builder as it was. -/
lemma perform_of_taken {slot : Slot S} (hslot : call.slot? = some slot) (htaken : b.Taken slot) :
    call.perform b = .error (slot.duplicate b.definition.name) b := by
  cases call with
  | startWhen trigger initial =>
    cases hslot
    exact congrFun (if_pos htaken) b
  | executeOnStart trigger run => cases hslot
  | onWhen source trigger =>
    cases hslot
    exact congrFun (if_pos htaken) b
  | execute source trigger run => cases hslot
  | transitionTo source trigger target =>
    cases hslot
    exact congrFun (if_pos htaken) b
  | correlate message select =>
    cases hslot
    exact congrFun (if_pos htaken) b

/-- A call that is accepted succeeds and leaves the builder it was to leave. -/
lemma Accepts.perform (h : b.Accepts call b') : call.perform b = .ok () b' := by
  cases h with
  | startWhen hfree => exact congrFun (if_neg hfree) b
  | executeOnStart => rfl
  | onWhen hfree => exact congrFun (if_neg hfree) b
  | execute => rfl
  | transitionTo hfree => exact congrFun (if_neg hfree) b
  | correlate hfree => exact congrFun (if_neg hfree) b

/-- A call fails because its slot is taken, or it is accepted. -/
lemma Call.perform_cases (call : Call σ M S) (b : Builder σ M S) :
    (∃ slot, call.slot? = some slot ∧ b.Taken slot) ∨ ∃ b', b.Accepts call b' := by
  have hclaims : ∀ slot, call.slot? = some slot → (¬ b.Taken slot → ∃ b', b.Accepts call b') →
      (∃ slot, call.slot? = some slot ∧ b.Taken slot) ∨ ∃ b', b.Accepts call b' := by
    intro slot hslot haccepts
    by_cases htaken : b.Taken slot
    · exact .inl ⟨slot, hslot, htaken⟩
    · exact .inr (haccepts htaken)
  cases call with
  | startWhen trigger initial => exact hclaims _ rfl fun hfree => ⟨_, .startWhen hfree⟩
  | executeOnStart trigger run => exact .inr ⟨_, .executeOnStart⟩
  | onWhen source trigger => exact hclaims _ rfl fun hfree => ⟨_, .onWhen hfree⟩
  | execute source trigger run => exact .inr ⟨_, .execute⟩
  | transitionTo source trigger target =>
    exact hclaims _ rfl fun hfree => ⟨_, .transitionTo hfree⟩
  | correlate message select => exact hclaims _ rfl fun hfree => ⟨_, .correlate hfree⟩

/-- Which calls are accepted, and the builder they leave, are determined by the calls. -/
lemma Takes.eq (h : Takes b calls made b') : made = b.accepted calls ∧ b' = b.after calls := by
  induction h with
  | nil => exact ⟨rfl, rfl⟩
  | @accepted b b' b'' call rest made haccepts _ ih =>
    obtain ⟨rfl, rfl⟩ := ih
    simp only [Builder.accepted, after, List.foldl_cons, haccepts.perform]
    exact ⟨trivial, rfl⟩
  | @rejected b b' call slot rest made hslot htaken _ ih =>
    obtain ⟨rfl, rfl⟩ := ih
    simp only [Builder.accepted, after, List.foldl_cons, perform_of_taken hslot htaken]
    exact ⟨trivial, rfl⟩

/-- Every sequence of calls comes to its accepted calls and to the builder after it. -/
lemma takes (b : Builder σ M S) (calls : List (Call σ M S)) :
    Takes b calls (b.accepted calls) (b.after calls) := by
  have hex : ∃ made b', Takes b calls made b' := by
    induction calls generalizing b with
    | nil => exact ⟨[], b, .nil⟩
    | cons call rest ih =>
      rcases call.perform_cases b with ⟨slot, hslot, htaken⟩ | ⟨b', haccepts⟩
      · obtain ⟨made, b'', hrest⟩ := ih b
        exact ⟨made, b'', .rejected hslot htaken hrest⟩
      · obtain ⟨made, b'', hrest⟩ := ih b'
        exact ⟨call :: made, b'', .accepted haccepts hrest⟩
  obtain ⟨made, b', htakes⟩ := hex
  obtain ⟨rfl, rfl⟩ := htakes.eq
  exact htakes

/-- The calls that are accepted are all accepted again when they are made alone, and come to the
same builder. -/
lemma Takes.replay (h : Takes b calls made b') : Takes b made made b' := by
  induction h with
  | nil => exact .nil
  | accepted haccepts _ ih => exact .accepted haccepts ih
  | rejected _ _ _ ih => exact ih

/-- No call changes whose builder it is. -/
lemma Takes.definition_eq (h : Takes b calls made b') : b'.definition = b.definition := by
  induction h with
  | nil => rfl
  | accepted haccepts _ ih =>
    rw [ih]
    cases haccepts <;> rfl
  | rejected _ _ _ ih => exact ih

/-- What every accepted call may bring about, and nothing undoes, holds in the end if it held at
first or some call has brought it about. -/
lemma Takes.holds_iff {q : Builder σ M S → Prop} {brings : Call σ M S → Prop}
    (hstep : ∀ b b' call, b.Accepts call b' → (q b' ↔ q b ∨ brings call))
    (h : Takes b calls made b') : q b' ↔ q b ∨ ∃ call ∈ made, brings call := by
  induction h with
  | nil => simp
  | accepted haccepts _ ih =>
    rw [ih, hstep _ _ _ haccepts]
    simp [or_assoc]
  | rejected _ _ _ ih => exact ih

/-- A chain that begins with an accepted call goes on from the builder that the call leaves. -/
lemma chained_of_accepts (h : b.Accepts call b') :
    b.Chained (call :: rest) ↔ b.Stands call ∧ b'.Chained rest := by
  simp only [Chained, h.perform, Run.final_ok]

/-- A chain that begins with a rejected call goes on from the same builder. -/
lemma chained_of_taken {slot : Slot S} (hslot : call.slot? = some slot) (htaken : b.Taken slot) :
    b.Chained (call :: rest) ↔ b.Stands call ∧ b.Chained rest := by
  simp only [Chained, perform_of_taken hslot htaken, Run.final_error]

/-- The beginning of a chain is a chain. -/
lemma Chained.of_append {before : List (Call σ M S)} (h : b.Chained (before ++ rest)) :
    b.Chained before := by
  induction before generalizing b with
  | nil => trivial
  | cons call before ih => exact ⟨h.1, ih h.2⟩

end Saga.Builder
