import Saga.Proofs.Script.Services

/-!
# What scripts ask for

`Script.Only p s` says that the script `s`, whatever it is answered, makes no request without the
property `p`. It goes along with sequencing, so it holds of the script of a rule once it holds of
the rule's actions, and a property of deliveries that the requests with `p` keep is kept by the
whole run (`Only.run_keeps`).

The three kinds of actions that the theory distinguishes are given as such properties: those that
stage no row, those that stay inside their delivery, and those that only send and report.
-/

namespace Saga

namespace Request

variable {M : Type}

/-- Neither stages a row nor commits. -/
def KeepsRows : Request M → Prop
  | .add _ | .update _ | .commit => False
  | _ => True

/-- Neither commits nor has another delivery do anything. -/
def StaysInside : Request M → Prop
  | .commit | .forward _ _ => False
  | _ => True

/-- Sends, publishes, reports, or asks what is there. -/
def OnlySends : Request M → Prop
  | .find _ | .add _ | .update _ | .commit | .cancel | .forward _ _ => False
  | _ => True

end Request

namespace Script

variable {σ M ε ε' α β : Type} {p q : Request M → Prop}

/-- Whether a script, whatever it is answered, only makes requests with the property `p`. -/
def Only (p : Request M → Prop) : Script σ M ε α → Prop
  | done _ => True
  | fail _ => True
  | app _ next => ∀ s, (next s).Only p
  | request r next => p r ∧ ∀ answer, (next answer).Only p

namespace Only

/-- A script made of two asks for what the two ask for. -/
lemma bind {s : Script σ M ε α} {f : α → Script σ M ε β} (hs : s.Only p)
    (hf : ∀ a, (f a).Only p) : (s.bind f).Only p := by
  induction s with
  | done a => exact hf a
  | fail e => trivial
  | app change next ih =>
    intro state
    exact ih state (hs state)
  | request r next ih =>
    obtain ⟨hr, hnext⟩ := hs
    refine ⟨hr, ?_⟩
    intro answer
    exact ih answer (hnext answer)

/-- A script that asks for certain things only asks for nothing beyond any wider kind. -/
lemma mono {s : Script σ M ε α} (hs : s.Only p) (hpq : ∀ r, p r → q r) : s.Only q := by
  induction s with
  | done a => trivial
  | fail e => trivial
  | app change next ih => exact fun state => ih state (hs state)
  | request r next ih => exact ⟨hpq r hs.1, fun answer => ih answer (hs.2 answer)⟩

/-- Putting the failures of a script in other terms changes nothing of what it asks for. -/
lemma mapError {s : Script σ M ε α} (f : ε → ε') (hs : s.Only p) : (s.mapError f).Only p := by
  induction s with
  | done a => trivial
  | fail e => trivial
  | app change next ih =>
    intro state
    exact ih state (hs state)
  | request r next ih =>
    obtain ⟨hr, hnext⟩ := hs
    refine ⟨hr, ?_⟩
    intro answer
    exact ih answer (hnext answer)

variable [FromEngine ε]

/-- A result that is given asks for nothing. -/
lemma ofExcept (x : Except EngineError α) : (Script.ofExcept x : Script σ M ε α).Only p := by
  cases x <;> trivial

/-- A single request asks for just that. -/
lemma ask {r : Request M} (hr : p r) : (Script.ask r : Script σ M ε r.Answer).Only p :=
  ⟨hr, Only.ofExcept⟩

/-- Checking asks for nothing but whether the delivery is cancelled. -/
lemma checkLive (h : p .isCancelled) : (Script.checkLive : Script σ M ε Unit).Only p := by
  refine bind (ask h) ?_
  intro cancelled
  cases (cancelled : Bool) <;> trivial

omit [FromEngine ε] in
/-- A property of deliveries that changes of the application and requests with `p` keep is kept by
a run of a script that only makes such requests. -/
lemma run_keeps {scope : Scope σ M} {I : Delivery σ M → Prop}
    (happ : ∀ (change : σ → σ) d, I d → I { d with app := change d.app })
    (hperform : ∀ r d, p r → I d → I (Run.final (scope.perform r d)))
    {s : Script σ M ε α} (hs : s.Only p) (d : Delivery σ M) (hd : I d) :
    I (Run.final (s.run scope d)) := by
  induction s generalizing d with
  | done a => exact hd
  | fail e => exact hd
  | app change next ih => exact ih d.app (hs d.app) _ (happ change d hd)
  | request r next ih =>
    obtain ⟨hr, hnext⟩ := hs
    have hafter := hperform r d hr hd
    simp only [Script.run]
    split
    · next answer d' heq =>
      rw [heq] at hafter
      exact ih _ (hnext _) d' hafter
    · next e d' heq =>
      rw [heq] at hafter
      exact ih _ (hnext _) d' hafter

end Only

end Script

section Sending

variable {σ M α : Type} [Payload α]

/-- An action that sends a command only sends. -/
lemma Action.sendCommand_onlySends (make : M → α) (m : M) :
    (Action.sendCommand make m : Script σ M Failure Unit).Only Request.OnlySends :=
  (Script.Only.ask trivial).bind fun _ =>
    (Script.Only.ofExcept _).bind fun _ => Script.Only.ask trivial

/-- An action that publishes a notification only sends. -/
lemma Action.publishNotification_onlySends (make : M → α) (m : M) :
    (Action.publishNotification make m : Script σ M Failure Unit).Only Request.OnlySends :=
  (Script.Only.ask trivial).bind fun _ =>
    (Script.Only.ofExcept _).bind fun _ => Script.Only.ask trivial

end Sending

variable {σ M : Type} {p : Request M → Prop}

/-- The script of a rule asks for what the actions of the rule ask for, and whether the delivery was
cancelled. -/
lemma runActions_only (hcheck : p .isCancelled) (definition message : String) (m : M) (index : Nat)
    {actions : List (Action σ M)} (h : ∀ action ∈ actions, (action m).Only p) :
    (runActions definition message m index actions).Only p := by
  induction actions generalizing index with
  | nil => trivial
  | cons action rest ih =>
    refine (Script.Only.checkLive hcheck).bind fun _ => ?_
    refine ((h action List.mem_cons_self).mapError _).bind fun _ => ?_
    apply ih
    intro other hmem
    exact h other (List.mem_cons_of_mem action hmem)

namespace Blueprint

variable {S : StateSet} [Message M]

/-- Whether an action belongs to a rule that the message can trigger. -/
def Triggers (b : Blueprint σ M S) (m : M) (action : Action σ M) : Prop :=
  (∃ rule, b.starts.get? (Message.type m) = some rule ∧ action ∈ rule.actions) ∨
    ∃ state rule, b.transfers.get? (state, Message.type m) = some rule ∧ action ∈ rule.actions

/-- Whether the actions that a message can trigger only make requests with the property `p`. -/
def Only (p : Request M → Prop) (b : Blueprint σ M S) (m : M) : Prop :=
  ∀ action, b.Triggers m action → (action m).Only p

/-- Whether the scripts of the actions that a message can trigger have the property `q`. -/
def Every (q : Script σ M Failure Unit → Prop) (b : Blueprint σ M S) (m : M) : Prop :=
  ∀ action, b.Triggers m action → q (action m)

variable {b : Blueprint σ M S} {m : M}

/-- A blueprint whose actions ask for certain things only stays one for any wider kind. -/
lemma Only.weaken {q : Request M → Prop} (h : b.Only p m) (hpq : ∀ r, p r → q r) : b.Only q m :=
  fun action htriggers => (h action htriggers).mono hpq

/-- The startup rule of a blueprint asks for what its actions ask for, and for cancellation. -/
lemma Only.start (h : b.Only p m) (hcheck : p .isCancelled) : (b.start m).Only p := by
  unfold Blueprint.start
  split
  · trivial
  · next rule hrule =>
    refine (runActions_only hcheck _ _ m 0 ?_).bind fun _ => trivial
    intro action hmem
    exact h action (.inl ⟨rule, hrule, hmem⟩)

/-- The transition rule of a blueprint asks for what its actions ask for, and for cancellation. -/
lemma Only.transfer (h : b.Only p m) (hcheck : p .isCancelled) (state : S.State) :
    (b.transfer state m).Only p := by
  unfold Blueprint.transfer
  split
  · trivial
  · next rule hrule =>
    refine (runActions_only hcheck _ _ m 0 ?_).bind fun _ => trivial
    intro action hmem
    exact h action (.inr ⟨state, rule, hrule, hmem⟩)

end Blueprint

/-- Whether the actions that a message can trigger in a dispatch to `d` only make requests with the
property `p`: those of the blueprint that `d` compiles to, and those of one that the registry
already keeps for it. -/
structure Definition.Only [Message M] (p : Request M → Prop) (d : Definition σ M)
    (registry : Registry σ M) (m : M) : Prop where
  compiled : ∀ b, d.compile = .ok b → b.Only p m
  kept : ∀ cached, registry.lookup ⟨d.id, Message.type m⟩ = some cached → cached.blueprint.Only p m

end Saga
