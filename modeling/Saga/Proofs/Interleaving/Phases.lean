import Saga.Proofs.Dispatch.Stages
import Saga.Proofs.Interleaving.Errand
import Saga.Proofs.Script.Refusals

/-!
# The phases of a dispatch

Between two turns a dispatch is looking for its instance, acting on what it found, holding a write
that it has staged, or landed. Which requests are possible in a phase, and in which phase the answer
leaves it, is a relation (`Errand.Moves`); that a script goes by it, whatever it is answered, is a
judgement on scripts (`Errand.Follows`). It goes along with sequencing, so it holds of a dispatch
because it holds of its stages (`Errand.script_follows`).
-/

namespace Saga

variable {σ M : Type}

/-- How far a dispatch has come. -/
inductive Phase (S : StateSet) where
  | looking
  | acting (key : InstanceKey) (found : Option InstanceRecord)
  | holding (key : InstanceKey) (found : Option InstanceRecord) (write : StagedWrite)
      (outcome : Outcome S)
  | landed (outcome : Outcome S)

/-- Whether the commit is still to come. -/
def Phase.Pending {S : StateSet} : Phase S → Prop
  | landed _ => False
  | _ => True

namespace Errand

variable [Message M]

/-- The script of a dispatch. -/
def script (e : Errand σ M) : Script σ M EngineError (Outcome e.definition.states) :=
  e.definition.script e.options e.blueprint e.message

/-- The phase that follows when a request in a phase meets an answer. -/
inductive Moves (e : Errand σ M) : Phase e.definition.states →
    (r : Request M) → Except EngineError r.Answer → Phase e.definition.states → Prop where
  | failed {phase r error} : phase.Pending → Moves e phase r (.error error) phase
  | harmless {phase r answer} : phase.Pending → r.KeepsRows →
    (phase = .looking → ∀ key, r ≠ .find key) → Moves e phase r answer phase
  | found {key found} : e.Concerns key →
    Moves e .looking (.find key) (.ok found) (.acting key found)
  | added {key found record outcome} : e.Earned key found (.add record) outcome →
    Moves e (.acting key found) (.add record) (.ok ()) (.holding key found (.add record) outcome)
  | updated {key found record outcome} : e.Earned key found (.update record) outcome →
    Moves e (.acting key found) (.update record) (.ok ())
      (.holding key found (.update record) outcome)
  | committed {key found write outcome} :
    Moves e (.holding key found write outcome) .commit (.ok ()) (.landed outcome)
  | reported {outcome entry} :
    Moves e (.landed outcome) (.report entry) (.ok ()) (.landed outcome)

/-- Whether a script goes by the phases from the given one on, and ends in a phase and with a result
between which `post` holds. After the commit it no longer fails. -/
def Follows {α : Type} (e : Errand σ M) (post : Phase e.definition.states → α → Prop) :
    Phase e.definition.states → Script σ M EngineError α → Prop
  | phase, .done a => post phase a
  | phase, .fail _ => phase.Pending
  | phase, .app _ next => phase.Pending ∧ ∀ x, e.Follows post phase (next x)
  | phase, .request r next => ∀ answer, r.Meets answer →
    ∃ phase', e.Moves phase r answer phase' ∧ e.Follows post phase' (next answer)

/-- What a dispatch may end with in a phase: without a write, or with the outcome of the commit. -/
def Ends (e : Errand σ M) : Phase e.definition.states → Outcome e.definition.states → Prop
  | .acting _ _, outcome => outcome.writes = false
  | .landed outcome, outcome' => outcome = outcome'
  | _, _ => False

variable {e : Errand σ M} {α β : Type} {phase : Phase e.definition.states}
  {post : Phase e.definition.states → α → Prop} {post' : Phase e.definition.states → β → Prop}

/-- A script made of two goes by the phases when the second does from wherever the first ends. -/
lemma Follows.bind {s : Script σ M EngineError α} {f : α → Script σ M EngineError β}
    (hs : e.Follows post phase s) (hf : ∀ phase' a, post phase' a → e.Follows post' phase' (f a)) :
    e.Follows post' phase (s.bind f) := by
  induction s generalizing phase with
  | done a => exact hf phase a hs
  | fail error => exact hs
  | app change next ih =>
    obtain ⟨hpending, hnext⟩ := hs
    refine ⟨hpending, ?_⟩
    intro x
    exact ih x (hnext x)
  | request r next ih =>
    intro answer hmeets
    obtain ⟨phase', hmoves, hnext⟩ := hs answer hmeets
    exact ⟨phase', hmoves, ih answer hnext⟩

/-- A request that fails the script with its error leaves the phase, or goes on with its answer. -/
lemma follows_ask {r : Request M} {post : Phase e.definition.states → r.Answer → Prop}
    (hpending : phase.Pending)
    (h : ∀ a, ∃ phase', e.Moves phase r (.ok a) phase' ∧ post phase' a) :
    e.Follows post phase (Script.ask r) := by
  intro answer _
  cases answer with
  | error error => exact ⟨phase, .failed hpending, hpending⟩
  | ok a => exact h a

/-- Scripts that neither stage nor commit stay in their phase, once the instance was looked up. -/
lemma follows_of_only {s : Script σ M EngineError α} (hs : s.Only Request.KeepsRows)
    (hpending : phase.Pending) (hlooked : phase ≠ .looking) :
    e.Follows (fun phase' _ => phase' = phase) phase s := by
  induction s with
  | done a => rfl
  | fail error => exact hpending
  | app change next ih =>
    refine ⟨hpending, ?_⟩
    intro x
    exact ih x (hs x)
  | request r next ih =>
    obtain ⟨hr, hnext⟩ := hs
    intro answer _
    refine ⟨phase, .harmless hpending hr ?_, ih answer (hnext answer)⟩
    intro heq
    exact absurd heq hlooked

/-- Checking for cancellation leaves a pending dispatch in its phase. -/
lemma follows_checkLive (phase : Phase e.definition.states) (hpending : phase.Pending) :
    e.Follows (fun phase' _ => phase' = phase) phase
      (Script.checkLive : Script σ M EngineError Unit) := by
  have hask : e.Follows (fun phase' _ => phase' = phase) phase
      (Script.ask .isCancelled : Script σ M EngineError Bool) := by
    refine follows_ask hpending ?_
    intro cancelled
    refine ⟨phase, .harmless hpending trivial ?_, rfl⟩
    intro _ key
    nofun
  refine hask.bind ?_
  rintro _ cancelled rfl
  cases (cancelled : Bool) with
  | true => exact hpending
  | false => rfl

/-- Locating the instance asks for it once. -/
lemma locate_follows :
    e.Follows (fun phase located => e.Concerns located.1 ∧ phase = .acting located.1 located.2)
      .looking (e.definition.locate e.blueprint e.message) := by
  have hrequire : ∀ service, e.Follows (fun phase' _ => phase' = .looking) .looking
      (Script.require service : Script σ M EngineError Unit) := by
    intro service
    refine follows_ask trivial ?_
    intro _
    refine ⟨.looking, .harmless trivial trivial ?_, rfl⟩
    intro _ key
    nofun
  unfold Definition.locate
  cases hcorrelate : e.blueprint.correlate e.message with
  | error error => exact trivial
  | ok id =>
    have hconcerns : e.Concerns ⟨id, e.definition.id.name⟩ := ⟨hcorrelate, rfl⟩
    refine (hrequire .repository).bind ?_
    rintro _ _ rfl
    refine (hrequire .unitOfWork).bind ?_
    rintro _ _ rfl
    refine (follows_checkLive .looking trivial).bind ?_
    rintro _ _ rfl
    have hfind : e.Follows
        (fun phase found => phase = .acting ⟨id, e.definition.id.name⟩ found) .looking
        (Script.find ⟨id, e.definition.id.name⟩) :=
      follows_ask trivial fun found => ⟨_, .found hconcerns, rfl⟩
    refine hfind.bind ?_
    rintro _ found rfl
    exact ⟨hconcerns, rfl⟩

/-- What a dispatch holds between its reaction and its conclusion: nothing for an outcome without a
write, else the write that was earned. -/
def Holds (e : Errand σ M) (key : InstanceKey) (found : Option InstanceRecord) :
    Phase e.definition.states → Outcome e.definition.states → Prop :=
  fun phase outcome => (phase = .acting key found ∧ outcome.writes = false) ∨
    ∃ write, phase = .holding key found write outcome ∧ outcome.writes = true

/-- Staging what was earned takes a dispatch from acting to holding. -/
lemma staging_follows {key : InstanceKey} {found : Option InstanceRecord} {write : StagedWrite}
    {outcome : Outcome e.definition.states} (hearned : e.Earned key found write outcome) :
    e.Follows (e.Holds key found) (.acting key found) (Script.staging write outcome) := by
  have hstage : e.Follows (fun phase _ => phase = .holding key found write outcome)
      (.acting key found) (Script.stage write : Script σ M EngineError Unit) := by
    cases write with
    | add record => exact follows_ask trivial fun _ => ⟨_, .added hearned, rfl⟩
    | update record => exact follows_ask trivial fun _ => ⟨_, .updated hearned, rfl⟩
  refine (follows_checkLive (.acting key found) trivial).bind ?_
  rintro _ _ rfl
  refine hstage.bind ?_
  rintro _ _ rfl
  exact .inr ⟨write, rfl, hearned.writes⟩

/-- The actions of a rule leave a dispatch acting. -/
lemma runActions_follows {key : InstanceKey} {found : Option InstanceRecord}
    (h : e.blueprint.Only Request.KeepsRows e.message) {actions : List (Action σ M)}
    (hactions : ∀ action ∈ actions, e.blueprint.Triggers e.message action) :
    e.Follows (fun phase _ => phase = .acting key found) (.acting key found)
      (runActions e.blueprint.definition.name (Message.type e.message).name e.message 0
        actions) := by
  refine follows_of_only (runActions_only trivial _ _ _ _ ?_) trivial nofun
  intro action hmem
  exact h action (hactions action hmem)

/-- Writing to the log leaves an acting dispatch in its phase. -/
lemma report_follows (key : InstanceKey) (found : Option InstanceRecord) (severity : Severity)
    (source : LogSource) (text : String) :
    e.Follows (fun phase _ => phase = .acting key found) (.acting key found)
      (Script.report severity source text : Script σ M EngineError Unit) :=
  follows_of_only (Script.Only.ask trivial) trivial nofun

/-- Reacting to what was found ends without a write, or holding the one that was earned. -/
lemma react_follows (h : e.blueprint.Only Request.KeepsRows e.message) (key : InstanceKey)
    (found : Option InstanceRecord) :
    e.Follows (e.Holds key found) (.acting key found)
      (e.definition.react e.options e.blueprint key e.message found) := by
  cases found with
  | none =>
    simp only [Definition.react]
    cases hrule : e.blueprint.starts.get? (Message.type e.message) with
    | none =>
      rw [Definition.begin_of_none hrule]
      refine (report_follows key _ _ _ _).bind ?_
      rintro _ _ rfl
      exact .inl ⟨rfl, rfl⟩
    | some rule =>
      rw [Definition.begin_of_some hrule]
      refine (runActions_follows h fun action hmem => .inl ⟨rule, hrule, hmem⟩).bind ?_
      rintro _ _ rfl
      exact staging_follows (.started hrule)
  | some record =>
    simp only [Definition.react]
    cases hstate : e.definition.states.ofOrdinal? record.state with
    | none =>
      rw [Definition.moveOn_of_unknown hstate]
      exact trivial
    | some state =>
      cases hrule : e.blueprint.transfers.get? (state, Message.type e.message) with
      | none =>
        rw [Definition.moveOn_of_none hstate hrule]
        refine (report_follows key _ _ _ _).bind ?_
        rintro _ _ rfl
        split
        · next hpersist => exact staging_follows (.kept hstate hrule hpersist)
        · exact .inl ⟨rfl, rfl⟩
      | some rule =>
        rw [Definition.moveOn_of_some hstate hrule]
        refine (runActions_follows h fun action hmem =>
          .inr ⟨state, rule, hrule, hmem⟩).bind ?_
        rintro _ _ rfl
        exact staging_follows (.transferred hstate hrule)

/-- Concluding commits what is held, and reports. -/
lemma conclude_follows {key : InstanceKey} {found : Option InstanceRecord}
    {outcome : Outcome e.definition.states} (h : e.Holds key found phase outcome) :
    e.Follows e.Ends phase (e.definition.conclude outcome) := by
  rcases h with ⟨rfl, hwrites⟩ | ⟨write, rfl, hwrites⟩
  · rw [Definition.conclude_of_not_writes hwrites]
    exact hwrites
  · simp only [Definition.conclude, hwrites, if_true]
    have hcommit : e.Follows (fun phase _ => phase = .landed outcome)
        (.holding key found write outcome) (Script.commit : Script σ M EngineError Unit) :=
      follows_ask trivial fun _ => ⟨_, .committed, rfl⟩
    refine hcommit.bind ?_
    rintro _ _ rfl
    intro answer hmeets
    -- Were the report to fail, the dispatch would fail with its commit done.
    cases answer with
    | error error => exact hmeets.elim
    | ok u => exact ⟨_, .reported, rfl⟩

/-- A dispatch whose actions neither stage nor commit goes by the phases. -/
lemma script_follows (h : e.blueprint.Only Request.KeepsRows e.message) :
    e.Follows e.Ends .looking e.script := by
  unfold Errand.script
  rw [Definition.script_eq]
  refine locate_follows.bind ?_
  rintro _ ⟨key, found⟩ ⟨hconcerns, rfl⟩
  refine (react_follows h key found).bind ?_
  intro phase outcome hholds
  exact conclude_follows hholds

end Errand

end Saga
