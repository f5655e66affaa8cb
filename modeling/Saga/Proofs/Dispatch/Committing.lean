import Saga.Pipeline
import Saga.Router
import Saga.Proofs.Dispatch.Cancellation
import Saga.Proofs.Storage.Lifecycle

/-!
# Actions that commit

An action may commit the session of its own delivery. From then on the session is closed, so
whatever comes later in the dispatch, another action or the staging of the row, is refused by it
(`Scope.perform_session`): the dispatch ends where its actions end, and it ends in an error
(`Definition.script_of_commits`). What other deliveries do meanwhile stays their own as long as they
have sessions of their own (`Scope.Separate`), which those of a router have.
-/

namespace Saga

variable {σ M : Type}

/-- Neither stages a row nor has another delivery do anything. -/
def Request.SparesRows : Request M → Prop
  | .add _ | .update _ | .forward _ _ => False
  | _ => True

/-- A request that spares the rows forwards nothing. -/
lemma Request.SparesRows.not_forwards {r : Request M} (h : r.SparesRows) : ¬ r.Forwards := by
  cases r with
  | forward definition message => exact h.elim
  | _ => exact id

/-- Whether the deliveries that a scope forwards messages to leave the session of this one alone. -/
def Scope.Separate (scope : Scope σ M) : Prop :=
  ∀ definition message s, (Run.final (scope.forward definition message s)).session = s.session

/-- A run in isolation leaves the session of its delivery as it was. -/
lemma Delivery.isolated_session {α : Type} (run : Run σ M α) (s : Delivery σ M) :
    (Run.final (Delivery.isolated run s)).session = s.session := by
  unfold Delivery.isolated
  split <;> rfl

/-- A router forwards a message to a session of its own. -/
lemma Router.scope_separate [Message M] (r : Router σ M) : r.scope.Separate := by
  intro definition message s
  show (Run.final (r.forward Router.depth definition message s)).session = s.session
  unfold Router.depth Router.forward
  cases r.definitions.find? fun d => d.id = definition with
  | none => rfl
  | some d => exact Delivery.isolated_session _ s

section Closed

variable {scope : Scope σ M} {s s' : Delivery σ M}

/-- Nothing that a request does is done to a closed session. -/
lemma Delivery.Does.session_of_closed {r : Request M} {answer : r.Answer} (h : s.Does r answer s')
    (hs : s.session = .closed) : s'.session = .closed := by
  have hcommitted : s.session.committed = true := by rw [hs]; rfl
  cases h with
  | add hopen | update hopen | send hopen | publish hopen => cases hopen.symm.trans hcommitted
  | commit => rfl
  | _ => exact hs

/-- In a closed session no request but the forwarding of a message can change the store. -/
lemma Delivery.Does.store_of_closed {r : Request M} {answer : r.Answer} (h : s.Does r answer s')
    (hs : s.session = .closed) : s'.store = s.store := by
  have hcommitted : s.session.committed = true := by rw [hs]; rfl
  cases h with
  | commit hopen => cases hopen.symm.trans hcommitted
  | _ => rfl

/-- A commit by which no row was staged changes no row. -/
lemma Delivery.Does.table_of_spared {r : Request M} {answer : r.Answer} (h : s.Does r answer s')
    (hr : r.SparesRows) (hs : s.session.writes = []) :
    s'.session.writes = [] ∧ s'.store.table = s.store.table := by
  cases h with
  | add | update => exact hr.elim
  | commit hopen hstore =>
    obtain ⟨-, rfl⟩ := Store.commit_eq_ok_iff.1 hstore
    rw [hs]
    exact ⟨rfl, rfl⟩
  | _ => exact ⟨hs, rfl⟩

variable (hservices : scope.services.OfSession)

include hservices

/-- Whatever is asked of a delivery with a closed session, the session stays closed. -/
lemma Scope.perform_session (hseparate : scope.Separate) (r : Request M)
    (hs : s.session = .closed) : (Run.final (scope.perform r s)).session = .closed := by
  by_cases hr : r.Forwards
  · cases r with
    | forward definition message => exact (hseparate definition message s).trans hs
    | _ => exact hr.elim
  · rcases Scope.perform_cases hservices hr s with ⟨e, herror⟩ | ⟨answer, s', hok, hdoes⟩
    · rw [herror]
      exact hs
    · rw [hok]
      exact hdoes.session_of_closed hs

/-- The session is what answers a commit, and that closes it. -/
lemma Scope.perform_commit_closes (h : scope.perform .commit s = .ok () s') :
    s'.session = .closed := by
  rcases Scope.OfSession.perform_commit hservices s with ⟨e, herror⟩ | hcommit
  · cases herror.symm.trans h
  · rcases Delivery.commit_cases (s := s) with ⟨e, herror⟩ | ⟨store, log, -, -, hdone⟩
    · cases (hcommit.trans herror).symm.trans h
    · cases (hcommit.trans hdone).symm.trans h
      rfl

namespace Script

variable {ε α : Type} {script : Script σ M ε α}

/-- A closed session stays closed, whatever a script does. -/
lemma run_session_of_closed (hseparate : scope.Separate) (script : Script σ M ε α)
    (hs : s.session = .closed) : (Run.final (script.run scope s)).session = .closed := by
  induction script generalizing s with
  | done a => exact hs
  | fail e => exact hs
  | app change next ih => exact ih s.app hs
  | request r next ih =>
    rw [run_request]
    exact ih _ (Scope.perform_session hservices hseparate r hs)

/-- What forwards nothing leaves the store alone once the session is closed. -/
lemma run_store_of_closed (hscript : script.Only fun r => ¬ r.Forwards) (hs : s.session = .closed) :
    (Run.final (script.run scope s)).store = s.store := by
  refine And.right (hscript.run_does (s := s)
    (I := fun s' => s'.session = .closed ∧ s'.store = s.store) hservices (fun _ hr => hr)
    (fun _ _ h => h) ?_ ⟨hs, rfl⟩)
  rintro r answer s₁ s₂ - hdoes ⟨hclosed, hstore⟩
  exact ⟨hdoes.session_of_closed hclosed, (hdoes.store_of_closed hclosed).trans hstore⟩

/-- What neither stages rows nor forwards anything changes no row, also by its commits. -/
lemma run_table_of_spared (hscript : script.Only Request.SparesRows)
    (hs : s.session.writes = []) :
    (Run.final (script.run scope s)).store.table = s.store.table := by
  refine And.right (hscript.run_does (s := s)
    (I := fun s' => s'.session.writes = [] ∧ s'.store.table = s.store.table) hservices
    (fun _ hr => hr.not_forwards) (fun _ _ h => h) ?_ ⟨hs, rfl⟩)
  rintro r answer s₁ s₂ hr hdoes ⟨hwrites, htable⟩
  obtain ⟨hwrites', htable'⟩ := hdoes.table_of_spared hr hwrites
  exact ⟨hwrites', htable'.trans htable⟩

end Script

end Closed

/-- Whether a script has a commit of its own answered when it is run, and in which delivery that
leaves it. -/
inductive Script.MakesCommit {ε α : Type} (scope : Scope σ M) :
    Script σ M ε α → Delivery σ M → Delivery σ M → Prop where
  | here {next s s'} : scope.perform .commit s = .ok () s' →
    MakesCommit scope (.request .commit next) s s'
  | app {change next s s'} : MakesCommit scope (next s.app) { s with app := change s.app } s' →
    MakesCommit scope (.app change next) s s'
  | later {r next s s'} :
    MakesCommit scope (next (Run.result (scope.perform r s))) (Run.final (scope.perform r s)) s' →
    MakesCommit scope (.request r next) s s'

namespace Script.MakesCommit

variable {ε α : Type} {scope : Scope σ M} {script : Script σ M ε α} {s s' : Delivery σ M}

/-- A script that makes its commit leaves the session closed. -/
lemma session (hservices : scope.services.OfSession) (h : script.MakesCommit scope s s') :
    s'.session = .closed := by
  induction h with
  | here hcommit => exact Scope.perform_commit_closes hservices hcommit
  | app _ ih => exact ih
  | later _ ih => exact ih

/-- A script that has committed goes on from where that left it. -/
lemma exists_rest (h : script.MakesCommit scope s s') :
    ∃ rest : Script σ M ε α, script.run scope s = rest.run scope s' ∧
      ∀ p, script.Only p → rest.Only p := by
  induction h with
  | @here next s s' hcommit =>
    refine ⟨next (.ok ()), ?_, fun p hscript => hscript.2 _⟩
    rw [run_request, hcommit]
    rfl
  | @app change next s s' _ ih =>
    obtain ⟨rest, hrun, honly⟩ := ih
    exact ⟨rest, hrun, fun p hscript => honly p (hscript s.app)⟩
  | @later r next s s' _ ih =>
    obtain ⟨rest, hrun, honly⟩ := ih
    exact ⟨rest, (run_request scope r next s).trans hrun, fun p hscript => honly p (hscript.2 _)⟩

end Script.MakesCommit

variable [Message M]

/-- The script of the actions of a rule. -/
def Blueprint.act {S : StateSet} (b : Blueprint σ M S) (m : M) (actions : List (Action σ M)) :
    Script σ M EngineError Unit :=
  runActions b.definition.name (Message.type m).name m 0 actions

namespace Definition
open Script

variable {d : Definition σ M} {options : DispatchOptions} {scope : Scope σ M}
  {b : Blueprint σ M d.states} {m : M} {fetched s s' : Delivery σ M} {index : Nat}
  {action : Action σ M}

/-- What locates an instance has a repository to find it in. -/
lemma repository_of_locate (hservices : scope.services.OfSession)
    {located : InstanceKey × Option InstanceRecord}
    (h : (d.locate b m).run scope fetched = .ok located s) :
    scope.services.get? .repository = some (Repository.ofSession : Repository σ M) := by
  unfold locate at h
  obtain ⟨id, s₁, -, h⟩ := run_bind_eq_ok scope h
  obtain ⟨_, s₂, hrequire, -⟩ := run_bind_eq_ok scope h
  rw [run_require] at hrequire
  cases hget : scope.services.get? .repository with
  | none =>
    rw [hget] at hrequire
    cases hrequire
  | some repository => rw [hservices.repository repository hget]

omit [Message M] in
/-- A closed session takes no row. -/
lemma run_staging_of_closed {α : Type} (write : StagedWrite) (a : α)
    (hrepository : scope.services.get? .repository = some (Repository.ofSession : Repository σ M))
    (hs : s.session = .closed) :
    (staging write a : Script σ M EngineError α).run scope s =
      .error (if s.cancelled then .cancelled else .alreadyCommitted) s := by
  have hstage : Delivery.stage write s = .error .alreadyCommitted s := by
    rw [Delivery.stage_apply, hs]
    rfl
  have hstaged : (stage write : Script σ M EngineError Unit).run scope s =
      .error .alreadyCommitted s := by
    rw [run_stage hrepository, hstage]
    rfl
  rw [staging, run_bind, run_checkLive]
  cases s.cancelled with
  | true => rfl
  | false =>
    show ((stage write).bind fun _ => done a).run scope s = _
    rw [run_bind, hstaged]
    rfl

/-- The actions of a rule of which one commits leave the session closed, and the store as the commit
left it if none of them forwards a message. -/
lemma act_of_commits (hservices : scope.services.OfSession) (hseparate : scope.Separate)
    {actions : List (Action σ M)} (hat : actions[index]? = some action)
    (hbefore : (b.act m (actions.take index)).run scope fetched = .ok () s)
    (hlive : s.cancelled = false) (hcommits : (action m).MakesCommit scope s s') :
    (Run.final ((b.act m actions).run scope fetched)).session = .closed ∧
      ((∀ action ∈ actions, (action m).Only fun r => ¬ r.Forwards) →
        (Run.final ((b.act m actions).run scope fetched)).store = s'.store) := by
  obtain ⟨rest, hrun, honly⟩ := hcommits.exists_rest
  have hclosed : (Run.final ((action m).run scope s)).session = .closed := by
    rw [hrun]
    exact run_session_of_closed hservices hseparate rest (hcommits.session hservices)
  have hstore : (∀ action ∈ actions, (action m).Only fun r => ¬ r.Forwards) →
      (Run.final ((action m).run scope s)).store = s'.store := by
    intro hactions
    rw [hrun]
    exact run_store_of_closed hservices (honly _ (hactions action (List.mem_of_getElem? hat)))
      (hcommits.session hservices)
  have hsplit : (b.act m actions).run scope fetched = _ := run_runActions_split hat hbefore hlive
  rw [hsplit]
  cases hended : (action m).run scope s with
  | error e s₁ =>
    rw [hended] at hclosed hstore
    exact ⟨hclosed, hstore⟩
  | ok u s₁ =>
    rw [hended] at hclosed hstore
    refine ⟨run_session_of_closed hservices hseparate _ hclosed, fun hactions => ?_⟩
    refine (run_store_of_closed hservices (runActions_only (fun h => h) _ _ m _ ?_) hclosed).trans
      (hstore hactions)
    exact fun later hmem => hactions later (List.mem_of_mem_drop hmem)

/-- A dispatch with an action that commits ends where the actions end, in an error: that of the
action that failed, if one did, and else that of the row that the closed session does not take. -/
lemma script_of_commits (hservices : scope.services.OfSession) (hseparate : scope.Separate)
    (options : DispatchOptions) (hstarts : d.Starts scope b m fetched index action s)
    (hcommits : (action m).MakesCommit scope s s') :
    ∃ key found actions, (d.locate b m).run scope fetched = .ok (key, found) fetched ∧
      d.matching? b m found = some actions ∧
      let acted := (b.act m actions).run scope fetched
      (d.script options b m).run scope fetched = .error
        (match Run.result acted with
        | .error e => e
        | .ok () => if (Run.final acted).cancelled then .cancelled else .alreadyCommitted)
        (Run.final acted) ∧
      (Run.final acted).session = .closed ∧
      (b.Only (fun r => ¬ r.Forwards) m → (Run.final acted).store = s'.store) := by
  obtain ⟨key, found, actions, hlocate, hmatching, hat, hbefore, hlive⟩ := hstarts
  obtain ⟨hclosed, hstore⟩ := act_of_commits hservices hseparate hat hbefore hlive hcommits
  refine ⟨key, found, actions, hlocate, hmatching, ?_, hclosed, fun honly => hstore fun _ hmem =>
    honly _ (triggers_of_matching hmatching hmem)⟩
  obtain ⟨write, outcome, hreact⟩ := react_of_matching options key hmatching
  have hrepository := repository_of_locate hservices hlocate
  rw [script_eq, run_bind, hlocate]
  show ((d.react options b key m found).bind d.conclude).run scope fetched = _
  rw [hreact, run_bind, run_bind]
  have hact : (runActions b.definition.name (Message.type m).name m 0 actions).run scope fetched =
    (b.act m actions).run scope fetched := rfl
  rw [hact]
  cases hacted : (b.act m actions).run scope fetched with
  | error e s₁ => rfl
  | ok u s₁ =>
    rw [hacted, Run.final_ok] at hclosed
    have hstaging : Script.run scope (staging write outcome) s₁ = _ :=
      run_staging_of_closed write outcome hrepository hclosed
    dsimp only
    rw [hstaging]
    rfl

end Definition

/-- The life of a session. After any calls on any sessions of a store, each session has committed at
most once. As long as it has not, it holds all the writes and messages that it has staged, in that
order, whatever commits of it were cancelled or refused: a commit that is cancelled or that the
store refuses changes nothing, and any other hands the store all of them and closes the session.
Once it has committed it holds nothing, and what is staged or committed then fails and changes
neither the session nor the store. So a dispatch during which an action of the rule commits the
session always fails, and it ends just as the actions leave it, with the row of the instance not
even staged: nothing is stored after the commit unless an action has another delivery do it, and no
row changes unless an action itself stages one or has another delivery do something. -/
theorem session_lifecycle {ι : Type} [DecidableEq ι] :
    (∀ (start : Store) (calls : List (Call ι)) (i : ι),
      let c := (Chronicle.opened start).run calls
      c.past.committers.count i ≤ 1 ∧
        (i ∉ c.past.committers → c.storage.Holding i (c.past.staged i) (c.past.accepted i)) ∧
        (i ∈ c.past.committers → c.storage.Spent i)) ∧
    ∀ (d : Definition σ M) (options : DispatchOptions) (scope : Scope σ M) (engine : Engine σ M)
      (cancelled : Bool) (m : M) b fetched index action s s',
      scope.services.OfSession → scope.Separate →
      Registry.blueprint d (Message.type m) (engine.delivery cancelled) = .ok b fetched →
      d.Starts scope b m fetched index action s →
      (action m).MakesCommit scope s s' →
      ∃ key found actions, (d.locate b m).run scope fetched = .ok (key, found) fetched ∧
        d.matching? b m found = some actions ∧
        let acted := (b.act m actions).run scope fetched
        d.dispatch options scope m (engine.delivery cancelled) = .error
          (match Run.result acted with
          | .error e => e
          | .ok () => if (Run.final acted).cancelled then .cancelled else .alreadyCommitted)
          (Run.final acted) ∧
        (Run.final acted).session = .closed ∧
        (b.Only (fun r => ¬ r.Forwards) m → (Run.final acted).store = s'.store) ∧
        (b.Only Request.SparesRows m → (Run.final acted).store.table = engine.store.table) := by
  refine ⟨fun start calls i => ?session, ?dispatch⟩
  case session =>
    intro c
    have hsession : c.storage.sessions i = c.past.session i := Chronicle.session_run start calls i
    have hnodup : c.past.committers.Nodup := (Chronicle.accounted_run start calls).nodup
    refine ⟨List.nodup_iff_count.1 hnodup i, fun hi => ?_, fun hi => ?_⟩
    · exact Storage.holding_of_open (hsession.trans (History.session_of_not_mem hi))
    · exact Storage.spent_of_closed (hsession.trans (History.session_of_mem hi))
  case dispatch =>
    intro d options scope engine cancelled m b fetched index action s s' hservices hseparate hfetch
      hstarts hcommits
    obtain ⟨key, found, actions, hlocate, hmatching, hrun, hclosed, hstore⟩ :=
      Definition.script_of_commits hservices hseparate options hstarts hcommits
    refine ⟨key, found, actions, hlocate, hmatching, ?_, hclosed, hstore, fun honly => ?_⟩
    · rw [Definition.dispatch_apply, hfetch]
      exact hrun
    · have hactions : (b.act m actions).Only Request.SparesRows := runActions_only trivial _ _ m 0
        fun action hmem => honly action (Definition.triggers_of_matching hmatching hmem)
      rcases Registry.blueprint_cases d (Message.type m) (engine.delivery cancelled) with
        ⟨e, hfetch'⟩ | ⟨b', registry, log, hfetch', -⟩
      · cases hfetch.symm.trans hfetch'
      · cases hfetch.symm.trans hfetch'
        exact Script.run_table_of_spared hservices hactions rfl

namespace Settling
open Pipeline

/-- Counts and succeeds. -/
def count : Action Nat JobMessage := fun _ => Script.modify (· + 1)

/-- Commits the session of its own delivery. -/
def settle : Action Nat JobMessage := fun _ => Script.commit

/-- A workflow whose startup rule commits by itself between two actions that count. -/
def definition : Definition Nat JobMessage where
  id := ⟨"settling", 0⟩
  states := stages
  rules := [
    .start Event.start.type stages.processing [count, settle, count],
    .correlate Event.start.type JobMessage.id]

/-- What the workflow compiles to. -/
def blueprint : Blueprint Nat JobMessage definition.states where
  definition := ⟨"settling", 0⟩
  starts := Keyed.empty.insert Event.start.type ⟨stages.processing, [count, settle, count]⟩
  transfers := Keyed.empty
  selectors := Keyed.empty.insert Event.start.type JobMessage.id

/-- An engine with a job that is running. -/
def engine : Engine Nat JobMessage where
  store := { table := .ofList [⟨⟨⟨"6", "settling"⟩, 1, 4⟩, 10, 20⟩], commits := 2 }
  app := 0

/-- A router that knows the workflow. -/
def router : Router Nat JobMessage where
  definitions := [definition]

/-- The message that starts the job 7. -/
def start : JobMessage := ⟨.start, "7"⟩

/-- A session whose commit is cancelled, then taken, and then tried again, besides one that only
posts. -/
def calls : List (Call Nat) :=
  [.stage 0 (.add ⟨⟨"7", "settling"⟩, 1, 1⟩), .commit 0 true 30,
    .post 1 false ⟨.command, "Ship", .null⟩, .commit 0 false 40, .commit 0 false 50]

/-- The engine's store after these calls. -/
def called : Chronicle Nat := (Chronicle.opened engine.store).run calls

/-- The actions of the workflow stage no rows and forward nothing. -/
lemma spares : blueprint.Only Request.SparesRows start := by
  have hrules : ∀ action ∈ [count, settle, count], (action start).Only Request.SparesRows :=
    List.forall_mem_cons.2 ⟨fun _ => trivial, List.forall_mem_cons.2 ⟨Script.Only.ask trivial,
      List.forall_mem_cons.2 ⟨fun _ => trivial, nofun⟩⟩⟩
  rintro action (⟨rule, hrule, hmem⟩ | ⟨state, rule, hrule, -⟩)
  · cases hrule
    exact hrules action hmem
  · cases hrule

/-- The delivery once it has its blueprint. -/
def fetched : Delivery Nat JobMessage :=
  Run.final (Registry.blueprint definition Event.start.type (engine.delivery false))

/-- The delivery once the first action has counted. -/
def counted : Delivery Nat JobMessage := { fetched with app := 1 }

/-- The dispatch finds no instance under its key. -/
lemma located : (definition.locate blueprint start).run router.scope fetched =
    .ok (⟨"7", "settling"⟩, none) fetched := by
  have hselect : blueprint.selectors.get? (Message.type start) = some JobMessage.id := rfl
  have hid : isBlank (JobMessage.id start) = false := by decide
  exact Definition.locate_run_of_live router.services_complete hselect hid rfl

/-- The action that commits is the second of the rule, and the dispatch comes to it. -/
lemma starts : definition.Starts router.scope blueprint start fetched 1 settle counted :=
  ⟨⟨"7", "settling"⟩, none, [count, settle, count], located, rfl, rfl, rfl, rfl⟩

/-- The action makes its commit. -/
lemma commits : ∃ s, (settle start).MakesCommit router.scope counted s := ⟨_, .here rfl⟩

/-- The first session has committed once and takes nothing more, the second is open. The start of a
job whose second action commits fails for its row, with both other actions run and the commit made,
and leaves the rows as they were. -/
theorem settling_refused :
    called.past.committers.count 0 ≤ 1 ∧ 0 ∈ called.past.committers ∧ called.storage.Spent 0 ∧
    1 ∉ called.past.committers ∧ called.storage.Holding 1 [] [⟨.command, "Ship", .null⟩] ∧
    router.scope.services.OfSession ∧ router.scope.Separate ∧
    Registry.blueprint definition Event.start.type (engine.delivery false) =
      .ok blueprint fetched ∧
    definition.Starts router.scope blueprint start fetched 1 settle counted ∧
    (∃ s, (settle start).MakesCommit router.scope counted s) ∧
    blueprint.Only Request.SparesRows start ∧
    ∃ s, definition.dispatch {} router.scope start (engine.delivery false) =
        .error .alreadyCommitted s ∧
      s.session = .closed ∧ s.store.table = engine.store.table ∧ s.store.commits = 3 ∧
      s.app = 2 := by
  have hservices := router.services_ofSession
  have hcommitters : called.past.committers = [0] := rfl
  have hfetch : Registry.blueprint definition Event.start.type (engine.delivery false) =
    .ok blueprint fetched := rfl
  obtain ⟨hsessions, hdispatch⟩ := session_lifecycle (σ := Nat) (M := JobMessage) (ι := Nat)
  obtain ⟨honce, -, hspent⟩ := hsessions engine.store calls 0
  obtain ⟨-, hopen, -⟩ := hsessions engine.store calls 1
  have hmem : 0 ∈ called.past.committers := by rw [hcommitters]; decide
  have hnot : 1 ∉ called.past.committers := by rw [hcommitters]; decide
  refine ⟨honce, hmem, hspent hmem, hnot, hopen hnot, hservices, router.scope_separate, hfetch,
    starts, commits, spares, ?_⟩
  obtain ⟨s, hs⟩ := commits
  obtain ⟨key, found, actions, hlocate, hmatching, hfails, hclosed, -, htable⟩ :=
    hdispatch definition {} router.scope engine false start blueprint fetched 1 settle counted s
      hservices router.scope_separate hfetch starts hs
  cases located.symm.trans hlocate
  have hrule : definition.matching? blueprint start none = some [count, settle, count] := rfl
  cases hrule.symm.trans hmatching
  have hresult : (Run.result ((blueprint.act start [count, settle, count]).run router.scope
      fetched)).toOption = some () := by decide +kernel
  have hends : ∀ s, Run.final ((blueprint.act start [count, settle, count]).run router.scope
      fetched) = s → s.cancelled = false ∧ s.store.commits = 3 ∧ s.app = 2 := by
    rintro s rfl
    decide +kernel
  cases hacted : (blueprint.act start [count, settle, count]).run router.scope fetched with
  | error e s =>
    rw [hacted] at hresult
    cases hresult
  | ok u s =>
    rw [hacted] at hfails hclosed htable hends
    obtain ⟨hlive, hcommits, hcounted⟩ := hends s rfl
    simp only [Run.result_ok, Run.final_ok, hlive] at hfails
    exact ⟨s, hfails, hclosed, htable spares, hcommits, hcounted⟩

end Settling

end Saga
