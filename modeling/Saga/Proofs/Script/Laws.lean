import Mathlib.Tactic.Lemma
import Saga.Dispatch

/-!
# Laws of scripts

Scripts form a monad, so the script of a dispatch can be taken apart into its stages, and running a
script goes along with that: `run_bind` runs one stage and then the one made from its result. A run
ends in a delivery whether it succeeds or fails; `Run.result` and `Run.final` are the two halves of
what it comes to.
-/

namespace Saga

/-- What a run comes to, apart from the state it ends in. -/
def Run.result {ε δ α : Type} : EStateM.Result ε δ α → Except ε α
  | .ok a _ => .ok a
  | .error e _ => .error e

/-- The state in which a run ends. -/
def Run.final {ε δ α : Type} : EStateM.Result ε δ α → δ
  | .ok _ s => s
  | .error _ s => s

/-- The result of a run that succeeds is its value. -/
@[simp] lemma Run.result_ok {ε δ α : Type} (a : α) (s : δ) :
    Run.result (.ok a s : EStateM.Result ε δ α) = .ok a := rfl

/-- The result of a run that fails is its error. -/
@[simp] lemma Run.result_error {ε δ α : Type} (e : ε) (s : δ) :
    Run.result (.error e s : EStateM.Result ε δ α) = .error e := rfl

/-- A run that succeeds ends in its delivery. -/
@[simp] lemma Run.final_ok {ε δ α : Type} (a : α) (s : δ) :
    Run.final (.ok a s : EStateM.Result ε δ α) = s := rfl

/-- A run that fails ends in its delivery. -/
@[simp] lemma Run.final_error {ε δ α : Type} (e : ε) (s : δ) :
    Run.final (.error e s : EStateM.Result ε δ α) = s := rfl

/-- A result that is given is that of its run. -/
@[simp] lemma Run.result_ofExcept {σ M α : Type} (x : Except EngineError α) (s : Delivery σ M) :
    Run.result (Run.ofExcept x s) = x := by
  cases x <;> rfl

/-- A result that is given leaves the delivery as it is. -/
@[simp] lemma Run.final_ofExcept {σ M α : Type} (x : Except EngineError α) (s : Delivery σ M) :
    Run.final (Run.ofExcept x s) = s := by
  cases x <;> rfl

namespace Script

variable {σ M ε α β γ : Type}

/-- The sequence of scripts in `do` notation is `bind`. -/
lemma bind_eq (s : Script σ M ε α) (f : α → Script σ M ε β) : s >>= f = s.bind f := rfl

/-- The value of scripts in `do` notation is `done`. -/
lemma pure_eq (a : α) : (pure a : Script σ M ε α) = done a := rfl

/-- A script that is done goes on with its value. -/
@[simp] lemma done_bind (a : α) (f : α → Script σ M ε β) : (done a).bind f = f a := rfl

/-- It does not matter how sequences of scripts are put in brackets. -/
lemma bind_assoc (s : Script σ M ε α) (f : α → Script σ M ε β) (g : β → Script σ M ε γ) :
    (s.bind f).bind g = s.bind fun a => (f a).bind g := by
  induction s with
  | done a => rfl
  | fail e => rfl
  | app change next ih => exact congrArg (app change) (funext ih)
  | request r next ih => exact congrArg (request r) (funext ih)

section Run

variable (scope : Scope σ M)

/-- A script that is done comes to its value and does nothing. -/
@[simp] lemma run_done (a : α) (d : Delivery σ M) :
    (done a : Script σ M ε α).run scope d = .ok a d := rfl

/-- A script that makes a request goes on with its answer, from the state in which it was answered.
-/
lemma run_request (r : Request M) (next : Except EngineError r.Answer → Script σ M ε α)
    (d : Delivery σ M) :
    (request r next).run scope d =
      (next (Run.result (scope.perform r d))).run scope (Run.final (scope.perform r d)) := by
  simp only [Script.run]
  cases scope.perform r d <;> rfl

/-- Running one script and then the one made from its result. -/
lemma run_bind (s : Script σ M ε α) (f : α → Script σ M ε β) (d : Delivery σ M) :
    (s.bind f).run scope d =
      match s.run scope d with
      | .ok a d' => (f a).run scope d'
      | .error e d' => .error e d' := by
  induction s generalizing d with
  | done a => rfl
  | fail e => rfl
  | app change next ih => exact ih d.app { d with app := change d.app }
  | request r next ih =>
    simp only [Script.bind, Script.run]
    split
    · next answer d' h => exact ih (.ok answer) d'
    · next e d' h => exact ih (.error e) d'

/-- A script made of two that succeeds is one that went through both. -/
lemma run_bind_eq_ok {s : Script σ M ε α} {f : α → Script σ M ε β} {d d'' : Delivery σ M} {b : β}
    (h : (s.bind f).run scope d = .ok b d'') :
    ∃ a d', s.run scope d = .ok a d' ∧ (f a).run scope d' = .ok b d'' := by
  rw [run_bind] at h
  split at h
  · next a d' hs => exact ⟨a, d', hs, h⟩
  · cases h

variable [FromEngine ε]

/-- A result that is given is that of the script, which does nothing. -/
lemma run_ofExcept (x : Except EngineError α) (d : Delivery σ M) :
    (ofExcept x : Script σ M ε α).run scope d =
      match x with
      | .ok a => .ok a d
      | .error e => .error (FromEngine.ofEngine e) d := by
  cases x <;> rfl

/-- A request is answered by the delivery; an error that it meets is the script's failure. -/
lemma run_ask (r : Request M) (d : Delivery σ M) :
    (ask r : Script σ M ε r.Answer).run scope d =
      match scope.perform r d with
      | .ok a d' => .ok a d'
      | .error e d' => .error (FromEngine.ofEngine e) d' := by
  simp only [ask, Script.run]
  cases h : scope.perform r d <;> rfl

/-- A request that a script goes on from was answered. -/
lemma perform_of_run_ask {r : Request M} {a : r.Answer} {d d' : Delivery σ M}
    (h : (ask r : Script σ M ε r.Answer).run scope d = .ok a d') :
    scope.perform r d = .ok a d' := by
  rw [run_ask] at h
  split at h
  · next hperform =>
    cases h
    exact hperform
  · cases h

/-- Checking fails in a cancelled delivery and does nothing in a live one. -/
lemma run_checkLive (d : Delivery σ M) :
    (checkLive : Script σ M ε Unit).run scope d =
      if d.cancelled then .error (FromEngine.ofEngine .cancelled) d else .ok () d := by
  have hasked : scope.perform .isCancelled d = .ok d.cancelled d := rfl
  rw [checkLive, run_bind, run_ask, hasked]
  cases d.cancelled <;> rfl

/-- A report is written to the log, and nothing else happens. -/
@[simp] lemma run_report (severity : Severity) (source : LogSource) (text : String)
    (d : Delivery σ M) :
    (report severity source text : Script σ M ε Unit).run scope d =
      .ok () (d.logged severity source text) := rfl

end Run

end Script

end Saga
