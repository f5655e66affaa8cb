import Saga.Proofs.Script.Effects
import Saga.Proofs.Script.Emission

/-!
# Scripts that do not look at the application

A detached script may change the state of the application but never goes by what it was
(`Script.Detached`). Run from two deliveries that differ at most in that state and in the log, it
has one result and leaves two such deliveries (`Script.Detached.run_akin`). What it sends on its own
does not depend on the state either (`Script.Detached.emission_eq`).
-/

namespace Saga

variable {σ M : Type}

/-- Whether deliveries differ at most in the state of the application and in the log. -/
def Delivery.Akin (s s' : Delivery σ M) : Prop := ∃ app log, s' = { s with app, log }

/-- Whether runs have one result and end in deliveries that differ at most in the state of the
application and in the log. -/
def Run.Akin {ε α : Type} (run run' : EStateM.Result ε (Delivery σ M) α) : Prop :=
  Run.result run = Run.result run' ∧ (Run.final run).Akin (Run.final run')

namespace Scope

variable {scope : Scope σ M} {s s' : Delivery σ M}

/-- What is done with a service is akin in akin deliveries if what the service does is. -/
lemma bind_require_akin {α : Type} {name : ServiceName} {f : name.Provider σ M → Run σ M α}
    (hakin : s.Akin s')
    (hf : ∀ p, scope.services.get? name = some p → Run.Akin (f p s) (f p s')) :
    Run.Akin ((scope.require name >>= f) s) ((scope.require name >>= f) s') := by
  show Run.Akin (EStateM.bind (scope.require name) f s) (EStateM.bind (scope.require name) f s')
  rw [EStateM.bind, EStateM.bind, require_apply, require_apply]
  cases hp : scope.services.get? name with
  | none => exact ⟨rfl, hakin⟩
  | some p => exact hf p hp

/-- A request that forwards nothing is answered alike in akin deliveries. -/
lemma perform_akin (h : scope.services.OfSession) {r : Request M} (hr : ¬ r.Forwards)
    (hakin : s.Akin s') : Run.Akin (scope.perform r s) (scope.perform r s') := by
  obtain ⟨app, log, rfl⟩ := hakin
  have hakin : s.Akin { s with app, log } := ⟨app, log, rfl⟩
  have hstage : ∀ write,
      Run.Akin (Delivery.stage write s) (Delivery.stage write { s with app, log }) := by
    intro write
    rw [Delivery.stage_apply, Delivery.stage_apply]
    cases s.session.stage write <;> exact ⟨rfl, app, log, rfl⟩
  have henqueue : ∀ message,
      Run.Akin (Delivery.enqueue message s) (Delivery.enqueue message { s with app, log }) := by
    intro message
    rw [Delivery.enqueue_apply, Delivery.enqueue_apply]
    cases s.session.enqueue s.cancelled message <;> exact ⟨rfl, app, log, rfl⟩
  cases r with
  | find key =>
    refine bind_require_akin hakin fun p hp => ?_
    cases h.repository p hp
    show Run.Akin (Delivery.find key s) (Delivery.find key { s with app, log })
    rw [Delivery.find_apply, Delivery.find_apply]
    cases s.session.find s.store s.cancelled key <;> exact ⟨rfl, app, log, rfl⟩
  | add record =>
    refine bind_require_akin hakin fun p hp => ?_
    cases h.repository p hp
    exact hstage (.add record)
  | update record =>
    refine bind_require_akin hakin fun p hp => ?_
    cases h.repository p hp
    exact hstage (.update record)
  | send command =>
    refine bind_require_akin hakin fun p hp => ?_
    cases h.commandSender p hp
    exact henqueue command
  | publish notification =>
    refine bind_require_akin hakin fun p hp => ?_
    cases h.notificationPublisher p hp
    exact henqueue notification
  | commit =>
    refine bind_require_akin hakin fun p hp => ?_
    cases h.unitOfWork p hp
    show Run.Akin (Delivery.commit s) (Delivery.commit { s with app, log })
    rw [Delivery.commit_apply, Delivery.commit_apply]
    cases s.session.commit s.store s.cancelled s.now with
    | error e => exact ⟨rfl, app, log, rfl⟩
    | ok stored => exact ⟨rfl, app, _, rfl⟩
  | cancel => exact ⟨rfl, app, log, rfl⟩
  | isCancelled => exact ⟨rfl, hakin⟩
  | require service => exact bind_require_akin hakin fun p hp => ⟨rfl, hakin⟩
  | provides service => exact ⟨rfl, hakin⟩
  | forward definition message => exact absurd trivial hr
  | report entry => exact ⟨rfl, app, _, rfl⟩

end Scope

namespace Script

variable {ε ε' α β : Type}

/-- Whether a script never goes by the state of the application. -/
def Detached : Script σ M ε α → Prop
  | done _ => True
  | fail _ => True
  | app _ next => (∀ x, (next x).Detached) ∧ ∀ x y, next x = next y
  | request _ next => ∀ answer, (next answer).Detached

namespace Detached

/-- A sequence never goes by the application if its parts do not. -/
lemma bind {s : Script σ M ε α} {f : α → Script σ M ε β} (hs : s.Detached)
    (hf : ∀ a, (f a).Detached) : (s.bind f).Detached := by
  induction s with
  | done a => exact hf a
  | fail e => trivial
  | app change next ih =>
    obtain ⟨hnext, hsame⟩ := hs
    exact ⟨fun x => ih x (hnext x), fun x y => congrArg (Script.bind · f) (hsame x y)⟩
  | request r next ih => exact fun answer => ih answer (hs answer)

/-- Mapping the errors of a script does not make it go by the application. -/
lemma mapError {s : Script σ M ε α} (f : ε → ε') (hs : s.Detached) : (s.mapError f).Detached := by
  induction s with
  | done a => trivial
  | fail e => trivial
  | app change next ih =>
    obtain ⟨hnext, hsame⟩ := hs
    exact ⟨fun x => ih x (hnext x), fun x y => congrArg (Script.mapError f) (hsame x y)⟩
  | request r next ih => exact fun answer => ih answer (hs answer)

section Engine

variable [FromEngine ε]

/-- A result that is given does not go by the application. -/
lemma ofExcept (x : Except EngineError α) : (Script.ofExcept x : Script σ M ε α).Detached := by
  cases x <;> trivial

/-- A single request does not go by the application. -/
lemma ask (r : Request M) : (Script.ask r : Script σ M ε r.Answer).Detached := Detached.ofExcept

/-- Checking for cancellation does not go by the application. -/
lemma checkLive : (Script.checkLive : Script σ M ε Unit).Detached := by
  refine bind (ask _) ?_
  intro cancelled
  cases (cancelled : Bool) <;> trivial

end Engine

/-- A detached script that leaves other deliveries alone does the same in akin deliveries. -/
lemma run_akin {scope : Scope σ M} (h : scope.services.OfSession) {script : Script σ M ε α}
    (hscript : script.Detached) (hown : script.Only fun r => ¬ r.Forwards) {s s' : Delivery σ M}
    (hakin : s.Akin s') : Run.Akin (script.run scope s) (script.run scope s') := by
  induction script generalizing s s' with
  | done a => exact ⟨rfl, hakin⟩
  | fail e => exact ⟨rfl, hakin⟩
  | app change next ih =>
    obtain ⟨hnext, hsame⟩ := hscript
    obtain ⟨app, log, rfl⟩ := hakin
    simp only [Script.run]
    rw [hsame app s.app]
    exact ih s.app (hnext s.app) (hown s.app) ⟨change app, log, rfl⟩
  | request r next ih =>
    obtain ⟨hr, hrest⟩ := hown
    obtain ⟨hanswer, hafter⟩ := Scope.perform_akin h hr hakin
    rw [run_request, run_request, hanswer]
    exact ih _ (hscript _) (hrest _) hafter

/-- What a detached script comes to on its own does not depend on the state of the application. -/
lemma emission_eq {present : ServiceName → Bool} {script : Script σ M ε α}
    (hscript : script.Detached) (x y : σ) :
    (script.emission present x).result = (script.emission present y).result ∧
      (script.emission present x).messages = (script.emission present y).messages := by
  induction script generalizing x y with
  | done a => exact ⟨rfl, rfl⟩
  | fail e => exact ⟨rfl, rfl⟩
  | app change next ih =>
    obtain ⟨hnext, hsame⟩ := hscript
    simp only [emission]
    rw [hsame x y]
    exact ih y (hnext y) _ _
  | request r next ih =>
    obtain ⟨hresult, hmessages⟩ := ih _ (hscript (r.answer present)) x y
    exact ⟨hresult, congrArg (r.sent ++ ·) hmessages⟩

end Detached

end Script

/-- The script of a rule is detached if those of its actions are. -/
lemma runActions_detached (definition message : String) (m : M) (index : Nat)
    {actions : List (Action σ M)} (h : ∀ action ∈ actions, (action m).Detached) :
    (runActions definition message m index actions).Detached := by
  induction actions generalizing index with
  | nil => trivial
  | cons action rest ih =>
    refine Script.Detached.checkLive.bind fun _ => ?_
    refine ((h action List.mem_cons_self).mapError _).bind fun _ => ?_
    apply ih
    intro other hmem
    exact h other (List.mem_cons_of_mem action hmem)

end Saga
