import Saga.Proofs.Script.Only
import Saga.Proofs.Sequences

/-!
# Actions of compiled blueprints

Compiling takes the clauses of a definition one call at a time, and every call either registers a
rule without actions, attaches one action, or leaves the actions alone. So the rules of the
blueprint have no actions but those of the clauses (`compile_holds`), and what the clauses ask for
is what the compiled definition asks for (`Definition.Only.of_rules`).
-/

namespace Saga

variable {σ M : Type} {S : StateSet} {P : Action σ M → Prop}

/-- The actions that a clause attaches. -/
def Rule.actions : Rule σ M S → List (Action σ M)
  | .start _ _ actions => actions
  | .on _ _ steps => steps.filterMap fun
    | .action run => some run
    | .moveTo _ => none
  | .correlate _ _ => []

namespace Builder

/-- Whether all attached actions have a property. -/
structure Holds (P : Action σ M → Prop) (b : Builder σ M S) : Prop where
  starts : ∀ trigger rule, b.starts.get? trigger = some rule → ∀ run ∈ rule.actions, P run
  transfers : ∀ key rule, b.transfers.get? key = some rule → ∀ run ∈ rule.actions, P run

/-- Whether a call that is accepted attaches no action without the property. -/
def Keeps (P : Action σ M → Prop) (call : Build σ M S Unit) : Prop :=
  ∀ b b', b.Holds P → call b = .ok () b' → b'.Holds P

/-- A sequence keeps what both of its calls keep. -/
lemma Keeps.bind {first second : Build σ M S Unit} (hfirst : Keeps P first)
    (hsecond : Keeps P second) : Keeps P (first >>= fun _ => second) := by
  intro b b'' hb h
  obtain ⟨_, b', hok, hnext⟩ := EStateM.bind_eq_ok_iff.1 h
  exact hsecond b' b'' (hfirst b b' hb hok) hnext

/-- A loop keeps what each of its calls keeps. -/
lemma Keeps.forM {α : Type} {call : α → Build σ M S Unit} {items : List α}
    (h : ∀ item ∈ items, Keeps P (call item)) : Keeps P (items.forM call) := by
  induction items with
  | nil =>
    intro b b' hb hok
    cases hok
    exact hb
  | cons item rest ih =>
    refine (h item List.mem_cons_self).bind (ih ?_)
    intro other hmem
    exact h other (List.mem_cons_of_mem item hmem)

/-- A startup rule put in without actions. -/
lemma keeps_startWhen (trigger : MessageType) (initial : S.State) :
    Keeps P (startWhen (σ := σ) (M := M) trigger initial) := by
  intro b b' hb h
  change (if b.starts.contains trigger then _ else _ : Build σ M S Unit) b = _ at h
  split at h
  · cases h
  · cases h
    refine ⟨?_, hb.transfers⟩
    intro other rule hrule
    rw [Keyed.get?_insert] at hrule
    split at hrule
    · cases hrule
      simp
    · exact hb.starts other rule hrule

/-- A transition rule put in without actions. -/
lemma keeps_onWhen (source : S.State) (trigger : MessageType) :
    Keeps P (onWhen (σ := σ) (M := M) source trigger) := by
  intro b b' hb h
  change (if b.transfers.contains (source, trigger) then _ else _ : Build σ M S Unit) b = _ at h
  split at h
  · cases h
  · cases h
    refine ⟨hb.starts, ?_⟩
    intro key rule hrule
    rw [Keyed.get?_insert] at hrule
    split at hrule
    · cases hrule
      simp
    · exact hb.transfers key rule hrule

/-- An action on a startup rule keeps a property of all actions that it has itself. -/
lemma keeps_executeOnStart (trigger : MessageType) {run : Action σ M} (hrun : P run) :
    Keeps P (executeOnStart (S := S) trigger run) := by
  intro b b' hb h
  cases h
  refine ⟨?_, hb.transfers⟩
  intro other rule hrule
  rw [Keyed.get?_modify] at hrule
  split at hrule
  · obtain ⟨before, hbefore, rfl⟩ := Option.map_eq_some_iff.1 hrule
    intro run' hmem
    rcases List.mem_append.1 hmem with hold | hnew
    · exact hb.starts other before hbefore run' hold
    · exact List.mem_singleton.1 hnew ▸ hrun
  · exact hb.starts other rule hrule

/-- An action on a transition rule keeps a property of all actions that it has itself. -/
lemma keeps_execute (source : S.State) (trigger : MessageType) {run : Action σ M} (hrun : P run) :
    Keeps P (execute source trigger run) := by
  intro b b' hb h
  cases h
  refine ⟨hb.starts, ?_⟩
  intro key rule hrule
  rw [Keyed.get?_modify] at hrule
  split at hrule
  · obtain ⟨before, hbefore, rfl⟩ := Option.map_eq_some_iff.1 hrule
    intro run' hmem
    rcases List.mem_append.1 hmem with hold | hnew
    · exact hb.transfers key before hbefore run' hold
    · exact List.mem_singleton.1 hnew ▸ hrun
  · exact hb.transfers key rule hrule

/-- A target is set beside the actions. -/
lemma keeps_transitionTo (source : S.State) (trigger : MessageType) (target : S.State) :
    Keeps P (transitionTo (σ := σ) (M := M) source trigger target) := by
  intro b b' hb h
  change (if (b.transfers.get? (source, trigger)).any fun r => r.target.isSome then _ else _ :
    Build σ M S Unit) b = _ at h
  split at h
  · cases h
  · cases h
    refine ⟨hb.starts, ?_⟩
    intro key rule hrule
    rw [Keyed.get?_modify] at hrule
    split at hrule
    · obtain ⟨before, hbefore, rfl⟩ := Option.map_eq_some_iff.1 hrule
      exact hb.transfers key before hbefore
    · exact hb.transfers key rule hrule

/-- A selector adds no action, so it keeps every property of the actions. -/
lemma keeps_correlate (message : MessageType) (select : M → String) :
    Keeps P (correlate (σ := σ) (S := S) message select) := by
  intro b b' hb h
  change (if b.selectors.contains message then _ else _ : Build σ M S Unit) b = _ at h
  split at h
  · cases h
  · cases h
    exact ⟨hb.starts, hb.transfers⟩

/-- A clause attaches its own actions and no others. -/
lemma keeps_take {rule : Rule σ M S} (h : ∀ run ∈ rule.actions, P run) : Keeps P (take rule) := by
  cases rule with
  | start trigger initial actions =>
    refine (keeps_startWhen trigger initial).bind (Keeps.forM ?_)
    intro run hmem
    exact keeps_executeOnStart trigger (h run hmem)
  | on source trigger steps =>
    refine (keeps_onWhen source trigger).bind (Keeps.forM ?_)
    intro step hmem
    cases step with
    | action run =>
      refine keeps_execute source trigger (h run ?_)
      exact List.mem_filterMap.2 ⟨.action run, hmem, rfl⟩
    | moveTo target => exact keeps_transitionTo source trigger target
  | correlate message select => exact keeps_correlate message select

/-- The rules of a compiled blueprint have no actions but those of the clauses. -/
lemma compile_holds {d : Definition σ M} {b : Blueprint σ M d.states}
    (h : ∀ rule ∈ d.rules, ∀ run ∈ rule.actions, P run) (hb : d.compile = .ok b) :
    (∀ trigger rule, b.starts.get? trigger = some rule → ∀ run ∈ rule.actions, P run) ∧
      ∀ key rule, b.transfers.get? key = some rule → ∀ run ∈ rule.actions, P run := by
  have htakes : Keeps P (d.rules.forM take) := Keeps.forM fun rule hmem => keeps_take (h rule hmem)
  have hempty : Holds P ({ definition := d.id } : Builder σ M d.states) := by
    constructor
    · intro trigger rule hrule
      cases hrule
    · intro key rule hrule
      cases hrule
  unfold Definition.compile at hb
  split at hb
  · next u built heq =>
    have hbuilt := htakes _ built hempty heq
    unfold build at hb
    split at hb
    · cases hb
      exact ⟨hbuilt.starts, hbuilt.transfers⟩
    · cases hb
  · cases hb

end Builder

/-- What holds of the actions of the clauses holds of those of the compiled blueprint. -/
lemma Blueprint.Every.of_compile [Message M] {q : Script σ M Failure Unit → Prop}
    {d : Definition σ M} {b : Blueprint σ M d.states} {m : M}
    (hrules : ∀ rule ∈ d.rules, ∀ run ∈ rule.actions, q (run m)) (hb : d.compile = .ok b) :
    b.Every q m := by
  obtain ⟨hstarts, htransfers⟩ := Builder.compile_holds hrules hb
  rintro run (⟨rule, hrule, hmem⟩ | ⟨state, rule, hrule, hmem⟩)
  · exact hstarts _ rule hrule run hmem
  · exact htransfers _ rule hrule run hmem

/-- A compiled blueprint asks for what the actions of the clauses ask for. -/
lemma Blueprint.Only.of_compile [Message M] {p : Request M → Prop} {d : Definition σ M}
    {b : Blueprint σ M d.states} {m : M}
    (hrules : ∀ rule ∈ d.rules, ∀ run ∈ rule.actions, (run m).Only p) (hb : d.compile = .ok b) :
    b.Only p m :=
  Blueprint.Every.of_compile hrules hb

/-- A definition whose blueprint is not kept yet asks for what the actions of its clauses ask for.
-/
lemma Definition.Only.of_rules [Message M] {p : Request M → Prop} {d : Definition σ M}
    {registry : Registry σ M} {m : M}
    (hrules : ∀ rule ∈ d.rules, ∀ run ∈ rule.actions, (run m).Only p)
    (hfresh : registry.lookup ⟨d.id, Message.type m⟩ = none) : d.Only p registry m where
  compiled _ hb := .of_compile hrules hb
  kept cached hkept := by
    rw [hfresh] at hkept
    cases hkept

end Saga
