import Saga.Proofs.Interleaving.Turns

/-!
# One dispatch at a time

A pool in which a task is left alone until it is over, with the tasks that it has forwarded messages
to, does what the dispatch does (`Pool.start_alone`). So what holds of every pool holds of
dispatches that come one after the other, and nested ones among them.
-/

namespace Saga

variable {σ M : Type}

/-- The script that has come to a result. -/
def Script.ofResult {ε α : Type} : Except ε α → Script σ M ε α
  | .ok a => .done a
  | .error e => .fail e

/-- A turn of a script that asks for something goes on with the answer. -/
lemma Script.turn_request {ε α : Type} (scope : Scope σ M) (r : Request M)
    (next : Except EngineError r.Answer → Script σ M ε α) (d : Delivery σ M) :
    (Script.request r next).turn scope d =
      (next (Run.result (scope.perform r d)), Run.final (scope.perform r d)) := by
  simp only [Script.turn]
  cases scope.perform r d <;> rfl

/-- What is not forwarded does not depend on how messages are forwarded. -/
lemma Scope.perform_forward {services : Services (ServiceName.Provider σ M)}
    (forward forward' : DefinitionId → M → Run σ M String) {r : Request M} (hr : ¬ r.Forwards) :
    Scope.perform ⟨services, forward⟩ r = Scope.perform ⟨services, forward'⟩ r := by
  cases r with
  | forward id m => exact absurd trivial hr
  | _ => rfl

/-- The engine as a delivery with a given session sees it. -/
def Engine.seen (e : Engine σ M) (session : Session) (cancelled : Bool) : Delivery σ M :=
  { e with session, cancelled }

/-- A forwarded message leaves the session and the cancellation flag of the delivery as they are. -/
lemma Router.forward_frame [Message M] (r : Router σ M) (depth : Nat) (id : DefinitionId) (m : M)
    (e : Engine σ M) (session : Session) (cancelled : Bool) :
    (Run.final (r.forward depth id m (e.seen session cancelled))).toEngine.seen session cancelled =
      Run.final (r.forward depth id m (e.seen session cancelled)) := by
  cases depth with
  | zero => rfl
  | succ depth =>
    unfold Router.forward
    cases r.definitions.find? fun d => d.id = id with
    | none => rfl
    | some definition =>
      simp only [Delivery.isolated]
      split <;> rfl

/-- The task with another session and another script before it, and nothing to wait for. -/
def Task.resumed (t : Task σ M) (session : Session) (cancelled : Bool)
    (rest : Script σ M EngineError (Outcome t.definition.states)) : Task σ M :=
  { t with session, cancelled, rest, awaited := none }

/-- A task that has its result answers with it, the outcome summed up. -/
lemma Task.answer?_ofResult (t : Task σ M) (session : Session) (cancelled : Bool)
    (result : Except EngineError (Outcome t.definition.states)) :
    (t.resumed session cancelled (.ofResult result)).answer? =
      some (result.map Outcome.summary) := by
  cases result <;> rfl

namespace Pool

variable [Message M] {p q r : Pool σ M}

/-- Whether turns of tasks make the second pool out of the first. -/
def Leads (p q : Pool σ M) : Prop := ∃ turns : List Nat, p.run (turns.map .turn) = q

/-- No turns lead to the same pool. -/
lemma Leads.refl (p : Pool σ M) : Leads p p := ⟨[], rfl⟩

/-- One more turn before others leads where they do. -/
lemma Leads.turn (i : Nat) (h : Leads (p.turn i) q) : Leads p q := by
  obtain ⟨turns, hturns⟩ := h
  exact ⟨i :: turns, hturns⟩

/-- Turns after turns lead on. -/
lemma Leads.trans (h : Leads p q) (h' : Leads q r) : Leads p r := by
  obtain ⟨turns, rfl⟩ := h
  obtain ⟨turns', rfl⟩ := h'
  refine ⟨turns ++ turns', ?_⟩
  simp [Pool.run, List.foldl_append]

/-- Whether turns of tasks make the second pool out of the first, with a given engine and a given
task in one place, and the other tasks of the first pool where they were. -/
structure Becomes (p q : Pool σ M) (i : Nat) (engine : Engine σ M) (t : Task σ M) : Prop where
  leads : Leads p q
  router : q.router = p.router
  engine : q.engine = engine
  task : q.tasks[i]? = some t
  others : ∀ (j : Nat) (u : Task σ M), j ≠ i → p.tasks[j]? = some u → q.tasks[j]? = some u

/-- What a task becomes may become something further. -/
lemma Becomes.trans {i : Nat} {engine engine' : Engine σ M} {t t' : Task σ M}
    (h : Becomes p q i engine t) (h' : Becomes q r i engine' t') : Becomes p r i engine' t' where
  leads := h.leads.trans h'.leads
  router := h'.router.trans h.router
  engine := h'.engine
  task := h'.task
  others j u hj hu := h'.others j u hj (h.others j u hj hu)

/-- A turn that puts another task in the place of the one that took it. -/
lemma Becomes.of_turn {i : Nat} {t t' : Task σ M} (hget : p.tasks[i]? = some t)
    {engine : Engine σ M} {commits : List Commit}
    (hturn : p.turn i = { p with engine, tasks := p.tasks.set i t', commits }) :
    Becomes p { p with engine, tasks := p.tasks.set i t', commits } i engine t' where
  leads := by
    rw [← hturn]
    exact .turn i (.refl _)
  router := rfl
  engine := rfl
  task := List.getElem?_set_self (List.getElem?_eq_some_iff.1 hget).1
  others j u hj hu := (List.getElem?_set_ne hj.symm).trans hu

/-- Whether a task that forwards a message, with so many left, comes to be answered what the router
says. -/
def ForwardsAsRouter (σ M : Type) [Message M] (depth : Nat) : Prop :=
  ∀ (p : Pool σ M) (i : Nat) (t : Task σ M) (session : Session) (cancelled : Bool)
    (id : DefinitionId) (m : M)
    (next : Except EngineError String → Script σ M EngineError (Outcome t.definition.states)),
    t.depth = depth →
    p.tasks[i]? = some (t.resumed session cancelled (.request (.forward id m) next)) →
    let run := p.router.forward depth id m (p.engine.seen session cancelled)
    ∃ q, Becomes p q i (Run.final run).toEngine
      (t.resumed session cancelled (next (Run.result run)))

/-- A task that is left alone goes through with its script, if it forwards messages as the router
does. -/
lemma becomes_run {depth : Nat} (hforwards : ForwardsAsRouter σ M depth) (t : Task σ M)
    (hdepth : t.depth = depth) (i : Nat)
    (rest : Script σ M EngineError (Outcome t.definition.states)) (p : Pool σ M) (session : Session)
    (cancelled : Bool) (hget : p.tasks[i]? = some (t.resumed session cancelled rest)) :
    let run := rest.run ⟨t.services, p.router.forward depth⟩ (p.engine.seen session cancelled)
    ∃ q, Becomes p q i (Run.final run).toEngine
      (t.resumed (Run.final run).session (Run.final run).cancelled
        (.ofResult (Run.result run))) := by
  induction rest generalizing p session cancelled with
  | done a => exact ⟨p, .refl p, rfl, rfl, hget, fun _ _ _ hu => hu⟩
  | fail e => exact ⟨p, .refl p, rfl, rfl, hget, fun _ _ _ hu => hu⟩
  | app change next ih =>
    have hturn := turn_of_not_forwards hget (by exact id)
    obtain ⟨q, hq⟩ := ih p.engine.app _ session cancelled (Becomes.of_turn hget hturn).task
    exact ⟨q, (Becomes.of_turn hget hturn).trans hq⟩
  | request r next ih =>
    rw [Script.run_request]
    by_cases hr : r.Forwards
    · cases r with
      | forward id m =>
        obtain ⟨q, hq⟩ := hforwards p i t session cancelled id m next hdepth hget
        obtain ⟨q', hq'⟩ := ih _ q session cancelled hq.task
        rw [hq.router, hq.engine, Router.forward_frame] at hq'
        exact ⟨q', hq.trans hq'⟩
      | _ => exact hr.elim
    -- The scope of a task forwards nothing, which does not matter to other requests.
    · have hturn := turn_of_not_forwards hget hr
      rw [Scope.perform_forward _ (fun _ _ => throw .cancelled) hr]
      simp only [Pool.advance, Task.resumed, Script.turn_request] at hturn
      obtain ⟨q, hq⟩ := ih _ _ _ _ (Becomes.of_turn hget hturn).task
      exact ⟨q, (Becomes.of_turn hget hturn).trans hq⟩

/-- A message that was forwarded to a definition is handled there, in a session of its own. -/
lemma forward_of_find {router : Router σ M} {id : DefinitionId} {d : Definition σ M}
    (hfind : (router.definitions.find? fun d => d.id = id) = some d) (depth : Nat) (m : M)
    (engine : Engine σ M) (session : Session) (cancelled : Bool) :
    let run := d.dispatch router.options
      ⟨.ofSession router.application, router.forward depth⟩ m (engine.delivery false)
    (Run.final (router.forward (depth + 1) id m (engine.seen session cancelled))).toEngine =
        (Run.final run).toEngine ∧
      Run.result (router.forward (depth + 1) id m (engine.seen session cancelled)) =
        (Run.result run).map Outcome.summary := by
  intro run
  have hforward : router.forward (depth + 1) id m (engine.seen session cancelled) =
      Delivery.isolated (d.handle router.options
        ⟨.ofSession router.application, router.forward depth⟩ m)
        (engine.seen session cancelled) := by
    unfold Router.forward
    rw [hfind]
  have hhandle : d.handle router.options ⟨.ofSession router.application, router.forward depth⟩ m
      { engine.seen session cancelled with session := {}, cancelled := false } = _ :=
    Definition.handle_apply (engine.delivery false)
  rw [hforward]
  simp only [Delivery.isolated, hhandle]
  cases hrun : d.dispatch router.options ⟨.ofSession router.application, router.forward depth⟩ m
      (engine.delivery false) with
  | ok outcome s =>
    simp only [run, hrun]
    exact ⟨rfl, rfl⟩
  | error e s =>
    simp only [run, hrun]
    exact ⟨rfl, rfl⟩

/-- Fetching the blueprint of a job fails and changes nothing, or makes a task of the job. -/
lemma launch_cases (p : Pool σ M) (job : Job σ M) :
    (∃ e, p.launch job = .error e ∧
      Registry.blueprint job.definition (Message.type job.message)
        (p.engine.delivery job.cancelled) = .error e (p.engine.delivery job.cancelled)) ∨
      ∃ b engine, p.launch job = .ok { p with engine, tasks := p.tasks ++ [job.task b] } ∧
        Registry.blueprint job.definition (Message.type job.message)
          (p.engine.delivery job.cancelled) = .ok b (engine.delivery job.cancelled) := by
  unfold Pool.launch
  rcases Registry.blueprint_cases job.definition (Message.type job.message)
      (p.engine.delivery job.cancelled) with ⟨e, herror⟩ | ⟨b, registry, log, hok, -⟩
  · left
    refine ⟨e, ?_, herror⟩
    rw [herror]
  · right
    refine ⟨b, { p.engine with registry, log }, ?_, hok⟩
    rw [hok]
    rfl

/-- A task that was just started, and is left alone, comes to what the dispatch of its job comes to.
The other tasks stay where they are. -/
lemma leads_launched {job : Job σ M} (hforwards : ForwardsAsRouter σ M job.depth)
    {b : Blueprint σ M job.definition.states} {engine : Engine σ M} {p : Pool σ M} {n : Nat}
    (hget : p.tasks[n]? = some (job.task b))
    (hfetch : Registry.blueprint job.definition (Message.type job.message)
      (engine.delivery job.cancelled) = .ok b (p.engine.delivery job.cancelled)) :
    let run := job.definition.dispatch job.options ⟨job.services, p.router.forward job.depth⟩
      job.message (engine.delivery job.cancelled)
    ∃ q, Becomes p q n (Run.final run).toEngine
      ((job.task b).resumed (Run.final run).session (Run.final run).cancelled
        (.ofResult (Run.result run))) := by
  intro run
  have hdispatch : run = (job.definition.script job.options b job.message).run
      ⟨job.services, p.router.forward job.depth⟩ (p.engine.seen {} job.cancelled) := by
    show job.definition.dispatch _ _ _ _ = _
    rw [Definition.dispatch_apply, hfetch]
    rfl
  rw [hdispatch]
  exact becomes_run hforwards (job.task b) rfl n _ p {} job.cancelled hget

section Forward

variable {i : Nat} {t : Task σ M} {id : DefinitionId} {m : M}
  {next : Except EngineError String → Script σ M EngineError (Outcome t.definition.states)}

/-- A task that awaits an answer goes on with it once it is there. -/
lemma forward_awaited {j : Nat} {answer : Except EngineError String} (hawaited : t.awaited = some j)
    (hanswer : p.tasks[j]?.bind Task.answer? = some answer) :
    p.forward i t id m next = p.put i { t with rest := next answer, awaited := none } := by
  simp only [Pool.forward, hawaited, hanswer]

variable (hawaited : t.awaited = none)

include hawaited

/-- A task at the last depth is refused to forward. -/
lemma forward_too_deep (hdepth : t.depth = 0) :
    p.forward i t id m next = p.put i { t with
      rest := next (.error (.transport s!"messages to {id.name} are forwarded too deeply")) } := by
  simp only [Pool.forward, hawaited]
  split
  · rfl
  · next depth hsucc => cases hdepth.symm.trans hsucc

/-- A task that forwards to a definition that is not there is refused. -/
lemma forward_unknown {depth : Nat} (hdepth : t.depth = depth + 1)
    (hfind : (p.router.definitions.find? fun d => d.id = id) = none) :
    p.forward i t id m next = p.put i { t with
      rest := next (.error (.transport s!"{id.name} is no known definition")) } := by
  simp only [Pool.forward, hawaited]
  split
  · next hzero => cases hdepth.symm.trans hzero
  · simp only [hfind]

/-- A task that forwards to a definition without a blueprint is told so. -/
lemma forward_of_launch_error {depth : Nat} (hdepth : t.depth = depth + 1) {d : Definition σ M}
    (hfind : (p.router.definitions.find? fun d => d.id = id) = some d) {e : EngineError}
    (hlaunch : p.launch (p.forwarded d m depth) = .error e) :
    p.forward i t id m next = p.put i { t with rest := next (.error e) } := by
  simp only [Pool.forward, hawaited]
  split
  · next hzero => cases hdepth.symm.trans hzero
  · next depth' hsucc =>
    cases hdepth.symm.trans hsucc
    simp only [hfind, hlaunch]

/-- A task that forwards awaits the task that was launched for it. -/
lemma forward_of_launch_ok {depth : Nat} (hdepth : t.depth = depth + 1) {d : Definition σ M}
    (hfind : (p.router.definitions.find? fun d => d.id = id) = some d) {launched : Pool σ M}
    (hlaunch : p.launch (p.forwarded d m depth) = .ok launched) :
    p.forward i t id m next = launched.put i { t with awaited := some p.tasks.length } := by
  simp only [Pool.forward, hawaited]
  split
  · next hzero => cases hdepth.symm.trans hzero
  · next depth' hsucc =>
    cases hdepth.symm.trans hsucc
    simp only [hfind, hlaunch]

end Forward

/-- A task that has started another one for its message, and is left alone with it, comes to be
answered what the dispatch of the other one comes to. -/
lemma forward_launched (job : Job σ M) (hforwards : ForwardsAsRouter σ M job.depth)
    (hrouter : job.services = .ofSession p.router.application) {i : Nat} {t : Task σ M}
    {id : DefinitionId} {m : M}
    {next : Except EngineError String → Script σ M EngineError (Outcome t.definition.states)}
    (hget : p.tasks[i]? = some t) (hrest : t.rest = .request (.forward id m) next)
    {b : Blueprint σ M job.definition.states} {engine : Engine σ M}
    (hfetch : Registry.blueprint job.definition (Message.type job.message)
      (p.engine.delivery job.cancelled) = .ok b (engine.delivery job.cancelled))
    (hturn : p.turn i = Pool.put { p with engine, tasks := p.tasks ++ [job.task b] } i
      { t with awaited := some p.tasks.length }) :
    let run := job.definition.dispatch job.options
      ⟨.ofSession p.router.application, p.router.forward job.depth⟩ job.message
      (p.engine.delivery job.cancelled)
    ∃ q, Becomes p q i (Run.final run).toEngine
      (t.resumed t.session t.cancelled (next ((Run.result run).map Outcome.summary))) := by
  intro run
  have hi : i < p.tasks.length := (List.getElem?_eq_some_iff.1 hget).1
  -- The other task is the last one, so it is not the one that waits for it.
  have hlast : (p.turn i).tasks[p.tasks.length]? = some (job.task b) := by
    rw [hturn]
    exact (List.getElem?_set_ne (by omega)).trans List.getElem?_concat_length
  have hwaits : (p.turn i).tasks[i]? = some { t with awaited := some p.tasks.length } := by
    rw [hturn]
    exact List.getElem?_set_self (by simp; omega)
  have hothers : ∀ (j : Nat) (u : Task σ M), j ≠ i → p.tasks[j]? = some u →
      (p.turn i).tasks[j]? = some u := by
    intro j u hj hu
    rw [hturn]
    exact (List.getElem?_set_ne hj.symm).trans
      ((List.getElem?_append_left (List.getElem?_eq_some_iff.1 hu).1).trans hu)
  have hengine : (p.turn i).engine = engine := by rw [hturn]; rfl
  have hrouter' : (p.turn i).router = p.router := by rw [hturn]; rfl
  obtain ⟨q, hq⟩ := leads_launched hforwards hlast (hengine ▸ hfetch)
  rw [hrouter', hrouter] at hq
  have hwaits' := hq.others i _ (by omega) hwaits
  have hanswer : q.tasks[p.tasks.length]?.bind Task.answer? =
      some ((Run.result run).map Outcome.summary) := by
    rw [hq.task]
    exact Task.answer?_ofResult _ _ _ _
  have hresumes := (turn_of_forward hwaits' hrest).trans (forward_awaited rfl hanswer)
  have hlast' := Becomes.of_turn hwaits' hresumes
  refine ⟨_, .turn i (hq.leads.trans hlast'.leads), ?_, ?_, hlast'.task, ?_⟩
  · exact hlast'.router.trans (hq.router.trans hrouter')
  · exact hq.engine
  · intro j u hj hu
    refine hlast'.others j u hj (hq.others j u ?_ (hothers j u hj hu))
    have := (List.getElem?_eq_some_iff.1 hu).1
    omega

/-- With so many left, a message that a task forwards is answered what the router says. -/
lemma forwardsAsRouter (depth : Nat) : ForwardsAsRouter σ M depth := by
  induction depth with
  | zero =>
    intro p i t session cancelled id m next hdepth hget
    have hturn := (turn_of_forward hget rfl).trans (forward_too_deep rfl hdepth)
    exact ⟨_, Becomes.of_turn hget hturn⟩
  | succ depth ih =>
    intro p i t session cancelled id m next hdepth hget run
    have hdepth' : (t.resumed session cancelled (.request (.forward id m) next)).depth =
      depth + 1 := hdepth
    cases hfind : p.router.definitions.find? fun d => d.id = id with
    | none =>
      have hturn := (turn_of_forward hget rfl).trans (forward_unknown rfl hdepth' hfind)
      have hrun : run = .error (.transport s!"{id.name} is no known definition")
          (p.engine.seen session cancelled) := by
        show p.router.forward _ _ _ _ = _
        unfold Router.forward
        rw [hfind]
        rfl
      rw [hrun]
      exact ⟨_, Becomes.of_turn hget hturn⟩
    | some d =>
      obtain ⟨hengine, hresult⟩ := forward_of_find hfind depth m p.engine session cancelled
      rw [hengine, hresult]
      rcases launch_cases p (p.forwarded d m depth) with
        ⟨e, hlaunch, hfetch⟩ | ⟨b, engine, hlaunch, hfetch⟩
      · have hturn := (turn_of_forward hget rfl).trans
          (forward_of_launch_error rfl hdepth' hfind hlaunch)
        have hdispatch : d.dispatch p.router.options
            ⟨.ofSession p.router.application, p.router.forward depth⟩ m (p.engine.delivery false) =
              .error e (p.engine.delivery false) := by
          rw [Definition.dispatch_apply]
          simp only [show Registry.blueprint d (Message.type m) (p.engine.delivery false) = _ from
            hfetch]
          rfl
        rw [hdispatch]
        exact ⟨_, Becomes.of_turn hget hturn⟩
      · have hturn := (turn_of_forward hget rfl).trans
          (forward_of_launch_ok rfl hdepth' hfind hlaunch)
        exact forward_launched (p.forwarded d m depth) ih rfl hget rfl hfetch hturn

/-- A dispatch that starts in a pool and is left alone until it is over, with the dispatches of the
messages that it forwards, does what it does by itself: it has the same result, and it leaves the
engine the same. If it never starts, it fails by itself too, and leaves the engine alone. -/
theorem start_alone (p : Pool σ M) (job : Job σ M) :
    let run := job.definition.dispatch job.options ⟨job.services, p.router.forward job.depth⟩
      job.message (p.engine.delivery job.cancelled)
    (∃ e, p.step (.start job) = p ∧ run = .error e (p.engine.delivery job.cancelled)) ∨
      ∃ (b : Blueprint σ M job.definition.states) (q : Pool σ M),
        (p.step (.start job)).tasks = p.tasks ++ [job.task b] ∧
        Becomes (p.step (.start job)) q p.tasks.length (Run.final run).toEngine
          ((job.task b).resumed (Run.final run).session (Run.final run).cancelled
            (.ofResult (Run.result run))) := by
  intro run
  rcases launch_cases p job with ⟨e, hlaunch, hfetch⟩ | ⟨b, engine, hlaunch, hfetch⟩
  · left
    refine ⟨e, ?_, ?_⟩
    · simp only [Pool.step, hlaunch]
      rfl
    · show job.definition.dispatch _ _ _ _ = _
      rw [Definition.dispatch_apply, hfetch]
  · right
    have hstep : p.step (.start job) = { p with engine, tasks := p.tasks ++ [job.task b] } := by
      simp only [Pool.step, hlaunch]
      rfl
    rw [hstep]
    obtain ⟨q, hq⟩ := leads_launched (p := { p with engine, tasks := p.tasks ++ [job.task b] })
      (forwardsAsRouter job.depth) List.getElem?_concat_length hfetch
    exact ⟨b, q, rfl, hq⟩

end Pool

end Saga
