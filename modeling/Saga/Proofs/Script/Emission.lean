import Mathlib.Data.List.Forall2
import Saga.Proofs.Script.Only

/-!
# What sending scripts leave behind

A script that only sends and reports needs no delivery to say what it comes to: its answers depend
on nothing but the services that are there, so its result, the state of the application after it and
the messages that it sends can be read off (`Script.emission`). In a live delivery with an open
session its run comes to just that (`Script.run_emission`).

For the actions of a rule this is `emitAll`: their messages in order, up to the first action that
fails, whose failure is the failure of the rule.
-/

namespace Saga

variable {σ M ε α β : Type}

/-- What a script that only sends comes to. -/
structure Emission (σ ε α : Type) where
  result : Except ε α
  app : σ
  messages : List Envelope

namespace Request

/-- The message that a request sends. -/
def sent : Request M → List Envelope
  | .send message | .publish message => [message]
  | _ => []

/-- The answer to a request where these services are and nothing is known but what was sent. -/
def answer (present : ServiceName → Bool) : (r : Request M) → Except EngineError r.Answer
  | .find _ => .ok none
  | .isCancelled => .ok false
  | .provides service => .ok (present service)
  | .require service =>
    if present service then .ok () else .error (.serviceNotRegistered service.label)
  | .forward _ _ => .ok ""
  | .add _ | .update _ | .send _ | .publish _ | .commit | .cancel | .report _ => .ok ()

end Request

/-- Reads off what a script that only sends comes to. -/
def Script.emission (present : ServiceName → Bool) : Script σ M ε α → σ → Emission σ ε α
  | .done a, x => ⟨.ok a, x, []⟩
  | .fail e, x => ⟨.error e, x, []⟩
  | .app change next, x => (next x).emission present (change x)
  | .request r next, x =>
    let rest := (next (r.answer present)).emission present x
    { rest with messages := r.sent ++ rest.messages }

/-- What actions in order come to, the first of them being number `index`: all their messages, or
the failure of the first that fails. -/
def emitAll (present : ServiceName → Bool) (definition message : String) (m : M) :
    Nat → List (Action σ M) → σ → Emission σ EngineError Unit
  | _, [], x => ⟨.ok (), x, []⟩
  | index, action :: rest, x =>
    let first := (action m).emission present x
    match first.result with
    | .ok () =>
      let later := emitAll present definition message m (index + 1) rest first.app
      { later with messages := first.messages ++ later.messages }
    | .error cause =>
      ⟨.error (.ofAction definition message index cause), first.app, first.messages⟩

/-- The run with a given result that ends in a given state. -/
def Run.ended {δ : Type} : Except ε α → δ → EStateM.Result ε δ α
  | .ok a, s => .ok a s
  | .error e, s => .error e s

/-- The delivery with the state of the application exchanged and some messages more staged. -/
def Delivery.gained (d : Delivery σ M) (app : σ) (messages : List Envelope) (log : List LogEntry) :
    Delivery σ M :=
  { d with app, log, session := { d.session with messages := d.session.messages ++ messages } }

namespace Script

variable {present : ServiceName → Bool}

/-- One script after another sends the messages of both. -/
lemma emission_bind (s : Script σ M ε α) (f : α → Script σ M ε β) (x : σ) :
    (s.bind f).emission present x =
      match (s.emission present x).result with
      | .ok a =>
        let rest := (f a).emission present (s.emission present x).app
        { rest with messages := (s.emission present x).messages ++ rest.messages }
      | .error e => ⟨.error e, (s.emission present x).app, (s.emission present x).messages⟩ := by
  induction s generalizing x with
  | done a => rfl
  | fail e => rfl
  | app change next ih => exact ih x (change x)
  | request r next ih =>
    simp only [Script.bind, emission, ih (r.answer present) x]
    cases ((next (r.answer present)).emission present x).result with
    | ok a => simp only [List.append_assoc]
    | error e => rfl

/-- Putting the failures in other terms changes the result only. -/
lemma emission_mapError {ε' : Type} (f : ε → ε') (s : Script σ M ε α) (x : σ) :
    (s.mapError f).emission present x =
      ⟨match (s.emission present x).result with
        | .ok a => .ok a
        | .error e => .error (f e),
        (s.emission present x).app, (s.emission present x).messages⟩ := by
  induction s generalizing x with
  | done a => rfl
  | fail e => rfl
  | app change next ih => exact ih x (change x)
  | request r next ih =>
    simp only [mapError, emission, ih (r.answer present) x]

/-- Checking for cancellation sends nothing. -/
lemma emission_checkLive [FromEngine ε] (x : σ) :
    (checkLive : Script σ M ε Unit).emission present x = ⟨.ok (), x, []⟩ := rfl

/-- The script of a rule comes to what its actions come to in order. -/
lemma emission_runActions (definition message : String) (m : M) (index : Nat)
    (actions : List (Action σ M)) (x : σ) :
    (runActions definition message m index actions).emission present x =
      emitAll present definition message m index actions x := by
  induction actions generalizing index x with
  | nil => rfl
  | cons action rest ih =>
    show (Script.checkLive.bind fun _ => ((action m).mapError _).bind fun _ =>
      runActions definition message m (index + 1) rest).emission present x = _
    rw [emission_bind, emission_checkLive]
    simp only [List.nil_append]
    rw [emission_bind, emission_mapError, emitAll]
    cases ((action m).emission present x).result with
    | ok u => simp only [ih]
    | error cause => rfl

/-- A script that sends nothing comes to no messages. -/
lemma emission_messages_of_silent {s : Script σ M ε α} (hs : s.Only fun r => r.sent = []) (x : σ) :
    (s.emission present x).messages = [] := by
  induction s generalizing x with
  | done a => rfl
  | fail e => rfl
  | app change next ih => exact ih x (hs x) (change x)
  | request r next ih =>
    obtain ⟨hr, hnext⟩ := hs
    simp only [emission, hr, List.nil_append, ih _ (hnext _) x]

end Script

section Sending

variable {present : ServiceName → Bool} [Payload β] {make : M → β} {m : M} {e : Envelope}

/-- An action that sends a command sends its envelope. -/
lemma Action.emission_sendCommand (hsender : present .commandSender = true)
    (he : Envelope.command (make m) = .ok e) (x : σ) :
    (Action.sendCommand make m).emission present x = ⟨.ok (), x, [e]⟩ := by
  simp [Action.sendCommand, he, Script.send, Script.require, Script.ask, Script.ofExcept,
    Script.emission, Request.answer, Request.sent, hsender, bind, Script.bind]

/-- An action that publishes a notification sends its envelope. -/
lemma Action.emission_publishNotification (hpublisher : present .notificationPublisher = true)
    (he : Envelope.notification (make m) = .ok e) (x : σ) :
    (Action.publishNotification make m).emission present x = ⟨.ok (), x, [e]⟩ := by
  simp [Action.publishNotification, he, Script.publish, Script.require, Script.ask,
    Script.ofExcept, Script.emission, Request.answer, Request.sent, hpublisher, bind, Script.bind]

/-- Actions that send a message each come to all these messages. -/
lemma emitAll_of_forall₂ {definition message : String} {index : Nat} {actions : List (Action σ M)}
    {messages : List Envelope}
    (h : List.Forall₂ (fun action e => ∀ x, (action m).emission present x = ⟨.ok (), x, [e]⟩)
      actions messages) (x : σ) :
    emitAll present definition message m index actions x = ⟨.ok (), x, messages⟩ := by
  induction h generalizing index with
  | nil => rfl
  | cons hfirst _ ih => simp only [emitAll, hfirst, ih, List.singleton_append]

end Sending

namespace Delivery

/-- A delivery that has gained nothing is as it was. -/
lemma gained_nil (s : Delivery σ M) : s.gained s.app [] s.log = s := by
  simp [gained]

/-- What is gained after something else is gained behind it. -/
lemma gained_gained (s : Delivery σ M) (x y : σ) (first second : List Envelope)
    (log log' : List LogEntry) :
    (s.gained x first log).gained y second log' = s.gained y (first ++ second) log' := by
  simp [gained]

end Delivery

/-- A live delivery with an open session answers a request to send or report as `Request.answer`
says, and stages what was sent. -/
lemma Scope.perform_onlySends {scope : Scope σ M} (h : scope.services.Complete) {r : Request M}
    (hr : r.OnlySends) (s : Delivery σ M) (hlive : s.cancelled = false)
    (hopen : s.session.committed = false) :
    ∃ log, scope.perform r s =
      Run.ended (r.answer scope.services.contains) (s.gained s.app r.sent log) := by
  have henqueue : ∀ message, Delivery.enqueue message s =
      .ok () (s.gained s.app [message] s.log) := by
    intro message
    rw [Delivery.enqueue_apply, Session.enqueue_eq_ok_iff.2 ⟨hlive, hopen, rfl⟩]
    rfl
  cases r with
  | find key => exact hr.elim
  | add record => exact hr.elim
  | update record => exact hr.elim
  | commit => exact hr.elim
  | cancel => exact hr.elim
  | forward definition message => exact hr.elim
  | send message =>
    refine ⟨s.log, ?_⟩
    exact (bind_require_of_some h.commandSender (fun p => p message) s).trans (henqueue message)
  | publish message =>
    refine ⟨s.log, ?_⟩
    exact (bind_require_of_some h.notificationPublisher (fun p => p message) s).trans
      (henqueue message)
  | isCancelled =>
    refine ⟨s.log, ?_⟩
    show EStateM.Result.ok s.cancelled s = .ok false (s.gained s.app [] s.log)
    rw [hlive, Delivery.gained_nil]
  | require service =>
    refine ⟨s.log, ?_⟩
    rw [perform_require]
    show _ = Run.ended (if scope.services.contains service then _ else _)
      (s.gained s.app [] s.log)
    unfold Services.contains
    rw [Delivery.gained_nil]
    cases scope.services.get? service <;> rfl
  | provides service =>
    refine ⟨s.log, ?_⟩
    show EStateM.Result.ok (scope.services.contains service) s =
      .ok (scope.services.contains service) (s.gained s.app [] s.log)
    rw [Delivery.gained_nil]
  | report entry =>
    refine ⟨s.log ++ [entry], ?_⟩
    show EStateM.Result.ok () (s.logged entry.severity entry.source entry.text) =
      .ok () (s.gained s.app [] (s.log ++ [entry]))
    simp [Delivery.logged, Delivery.gained]

/-- In a live delivery with an open session a script that only sends comes to what can be read off
it, and stages its messages. -/
lemma Script.run_emission {scope : Scope σ M} (h : scope.services.Complete)
    {script : Script σ M ε α} (hscript : script.Only Request.OnlySends) (s : Delivery σ M)
    (hlive : s.cancelled = false) (hopen : s.session.committed = false) :
    ∃ log, script.run scope s =
      Run.ended (script.emission scope.services.contains s.app).result
        (s.gained (script.emission scope.services.contains s.app).app
          (script.emission scope.services.contains s.app).messages log) := by
  induction script generalizing s with
  | done a =>
    refine ⟨s.log, ?_⟩
    show EStateM.Result.ok a s = .ok a (s.gained s.app [] s.log)
    rw [Delivery.gained_nil]
  | fail e =>
    refine ⟨s.log, ?_⟩
    show EStateM.Result.error e s = .error e (s.gained s.app [] s.log)
    rw [Delivery.gained_nil]
  | app change next ih => exact ih s.app (hscript s.app) { s with app := change s.app } hlive hopen
  | request r next ih =>
    obtain ⟨hr, hnext⟩ := hscript
    obtain ⟨log, hperform⟩ := Scope.perform_onlySends h hr s hlive hopen
    -- What the request has left is still live and open, so the rest runs as the induction says.
    obtain ⟨log', hrest⟩ := ih (r.answer scope.services.contains) (hnext _)
      (s.gained s.app r.sent log) hlive hopen
    refine ⟨log', ?_⟩
    have hrun : (request r next).run scope s =
        (next (r.answer scope.services.contains)).run scope (s.gained s.app r.sent log) := by
      simp only [Script.run, hperform]
      cases r.answer scope.services.contains <;> rfl
    rw [hrun, hrest, Delivery.gained_gained]
    rfl

end Saga
