import Saga.Pipeline
import Saga.Proofs.Dispatch.Stages
import Saga.Proofs.Interleaving.Changes
import Saga.Proofs.Storage.Bookkeeping

/-!
# The creation of a row

A dispatch reports that it has started an instance only once it has committed the adding of its row
(`Task.Vouched`), whatever the actions of its rules stage and commit besides. Since no row is added
twice, at most one dispatch ever reports it, also where versions do not count
(`Pool.eq_of_started`). That and the books of the sessions are the account of all rows
(`versions_accounted`).
-/

namespace Saga

variable {σ M : Type}

/-- How far a script has come with the row that it added last. -/
inductive Addition where
  | none
  | staged (key : InstanceKey)
  | committed (key : InstanceKey)

namespace Addition

/-- A commit takes a row that was staged along. -/
def onCommit : Addition → Addition
  | staged key => committed key
  | addition => addition

/-- What follows when a request meets an answer. -/
def after (addition : Addition) : (r : Request M) → Except EngineError r.Answer → Addition
  | .add record, .ok _ => staged record.key
  | .commit, .ok _ => addition.onCommit
  | _, _ => addition

/-- Anything may be asked, and all that is remembered of it is the row that was added. -/
def regime (M : Type) : Regime M EngineError Addition where
  after := after

/-- Whether a row was staged by a session that is open, or is in a commit of its task. -/
def Backed (commits : List Commit) (task : Nat) (session : Session) : Addition → Prop
  | none => True
  | staged key => session.committed = false ∧ ∃ w ∈ session.writes, w.addsTo key
  | committed key => session.committed = true ∧
      ∃ c ∈ commits, c.task = task ∧ ∃ w ∈ c.writes, w.addsTo key

/-- A request that fails leaves what is known of the added row. -/
lemma after_error (addition : Addition) (r : Request M) (e : EngineError) :
    addition.after r (.error e) = addition := by
  cases r <;> rfl

/-- Any script goes along with the regime. -/
lemma heeds {α : Type} (s : Script σ M EngineError α) (addition : Addition) :
    s.Heeds (regime M) (fun _ _ => True) addition := by
  induction s generalizing addition with
  | done a => trivial
  | fail e => trivial
  | app change next ih => exact fun x => ih x addition
  | request r next ih => exact ⟨trivial, fun answer _ => ih answer _⟩

end Addition

namespace Definition
open Script

variable [Message M] {d : Definition σ M}

/-- Whether a result is no start, or the row of the instance has come as far as `far` says. -/
def Earns (d : Definition σ M) (far : InstanceKey → Addition) (addition : Addition)
    (outcome : Outcome d.states) : Prop :=
  ∀ id state, outcome = .started id state → addition = far ⟨id, d.id.name⟩

/-- Before its reaction a dispatch adds no row, and its key is one of its own definition. -/
lemma locate_heeds (b : Blueprint σ M d.states) (m : M) (addition : Addition) :
    (d.locate b m).Heeds (Addition.regime M) (fun _ located => located.1.definition = d.id.name)
      addition := by
  unfold Definition.locate
  refine (Addition.heeds _ _).bind fun addition id _ => ?_
  refine (Addition.heeds _ _).bind fun addition _ _ => ?_
  refine (Addition.heeds _ _).bind fun addition _ _ => ?_
  refine (Addition.heeds _ _).bind fun addition _ _ => ?_
  refine (Addition.heeds _ _).bind fun addition found _ => ?_
  exact rfl

omit [Message M] in
/-- A result that is no start may stand for any addition. -/
lemma staging_heeds {write : StagedWrite} {outcome : Outcome d.states}
    (houtcome : ∀ id state, outcome ≠ .started id state) (addition : Addition) :
    (staging write outcome : Script σ M EngineError _).Heeds (Addition.regime M)
      (d.Earns .staged) addition := by
  refine (Addition.heeds _ _).bind fun addition _ _ => ?_
  refine (Addition.heeds _ _).bind fun addition _ _ => ?_
  intro id state heq
  exact absurd heq (houtcome id state)

/-- A reaction that is to report a start has staged the row. -/
lemma react_heeds (options : DispatchOptions) (b : Blueprint σ M d.states) {key : InstanceKey}
    (hkey : key.definition = d.id.name) (m : M) (found : Option InstanceRecord)
    (addition : Addition) :
    (d.react options b key m found).Heeds (Addition.regime M) (d.Earns .staged) addition := by
  cases found with
  | none =>
    simp only [Definition.react]
    cases hrule : b.starts.get? (Message.type m) with
    | none =>
      rw [begin_of_none hrule]
      refine (Addition.heeds _ _).bind fun addition _ _ => ?_
      intro id state heq
      cases heq
    | some rule =>
      rw [begin_of_some hrule]
      refine (Addition.heeds _ _).bind fun addition _ _ => ?_
      refine (Addition.heeds _ _).bind fun addition _ _ => ?_
      have hadd : (Script.add (.fresh key rule.target.ordinal) : Script σ M EngineError Unit).Heeds
          (Addition.regime M) (fun addition _ => addition = .staged key) addition :=
        .ask trivial (fun _ _ => trivial) fun _ _ => rfl
      refine hadd.bind ?_
      rintro _ _ rfl id state heq
      cases heq
      obtain ⟨correlationId, definition⟩ := key
      cases hkey
      rfl
  | some record =>
    simp only [Definition.react]
    cases hstate : d.states.ofOrdinal? record.state with
    | none =>
      rw [moveOn_of_unknown hstate]
      exact trivial
    | some state =>
      cases hrule : b.transfers.get? (state, Message.type m) with
      | none =>
        rw [moveOn_of_none hstate hrule]
        refine (Addition.heeds _ _).bind fun addition _ _ => ?_
        split
        · exact staging_heeds (fun _ _ heq => by cases heq) addition
        · intro id state heq
          cases heq
      | some rule =>
        rw [moveOn_of_some hstate hrule]
        refine (Addition.heeds _ _).bind fun addition _ _ => ?_
        exact staging_heeds (fun _ _ heq => by cases heq) addition

omit [Message M] in
/-- Concluding commits the row that was staged for a start. -/
lemma conclude_heeds {outcome : Outcome d.states} {addition : Addition}
    (h : d.Earns .staged addition outcome) :
    (d.conclude outcome).Heeds (Addition.regime M) (d.Earns .committed) addition := by
  cases hwrites : outcome.writes with
  | false =>
    rw [conclude_of_not_writes hwrites]
    rintro id state rfl
    cases hwrites
  | true =>
    simp only [Definition.conclude, hwrites, if_true]
    have hcommit : (Script.commit : Script σ M EngineError Unit).Heeds (Addition.regime M)
        (fun addition _ => d.Earns .committed addition outcome) addition := by
      refine .ask trivial (fun _ _ => trivial) ?_
      rintro ⟨⟩ _ id state heq
      rw [h id state heq]
      rfl
    refine hcommit.bind ?_
    intro addition _ hearns
    have hreport : ∀ text,
        (Script.report .debug .dispatcher text : Script σ M EngineError Unit).Heeds
          (Addition.regime M) (fun addition _ => d.Earns .committed addition outcome) addition :=
      fun text => .ask trivial (fun _ _ => trivial) fun _ _ => hearns
    refine (hreport _).bind ?_
    intro addition _ hearns
    exact hearns

/-- A dispatch that reports a start has committed the row that it added for it. -/
lemma script_heeds (options : DispatchOptions) (b : Blueprint σ M d.states) (m : M) :
    (d.script options b m).Heeds (Addition.regime M) (d.Earns .committed) .none := by
  rw [script_eq]
  refine (locate_heeds b m .none).bind ?_
  intro addition located hkey
  refine (react_heeds options b hkey m located.2 addition).bind ?_
  intro addition outcome hearns
  exact conclude_heeds hearns

end Definition

namespace Addition

variable {addition : Addition} {commits : List Commit} {i : Nat} {session : Session}

/-- What backs an addition is there after more commits too. -/
lemma Backed.mono {more : List Commit} (h : addition.Backed commits i session) :
    addition.Backed (commits ++ more) i session := by
  cases addition with
  | none => trivial
  | staged key => exact h
  | committed key =>
    obtain ⟨hclosed, c, hc, hadds⟩ := h
    exact ⟨hclosed, c, List.mem_append_left more hc, hadds⟩

/-- More may be staged after a row. -/
lemma Backed.of_rows {session' : Session} (h : addition.Backed commits i session)
    (hwrites : ∀ w ∈ session.writes, w ∈ session'.writes)
    (hcommitted : session'.committed = session.committed) : addition.Backed commits i session' := by
  cases addition with
  | none => trivial
  | staged key =>
    obtain ⟨hopen, w, hw, hadds⟩ := h
    exact ⟨hcommitted.trans hopen, w, hwrites w hw, hadds⟩
  | committed key =>
    obtain ⟨hclosed, hcommit⟩ := h
    exact ⟨hcommitted.trans hclosed, hcommit⟩

/-- A commit of a session commits the row that the session has staged. -/
lemma Backed.commit (h : addition.Backed commits i session) (hopen : session.committed = false) :
    addition.onCommit.Backed (commits ++ [⟨i, session.writes⟩]) i .closed := by
  cases addition with
  | none => trivial
  | staged key =>
    obtain ⟨-, hadds⟩ := h
    exact ⟨rfl, ⟨i, session.writes⟩, by simp, rfl, hadds⟩
  | committed key =>
    obtain ⟨hclosed, -⟩ := h
    exact absurd (hopen.symm.trans hclosed) nofun

/-- What a script has made of the row that it added is backed by its session and its commits. -/
lemma secures {d : Delivery σ M} (h : addition.Backed commits i d.session) :
    (regime M).Secures addition d fun addition d' =>
      addition.Backed (commits ++
        if d'.session.committed && !d.session.committed then [⟨i, d.session.writes⟩] else []) i
        d'.session where
  ended := h.mono
  app _ := h.mono
  refused r e _ := by
    refine ⟨trivial, ?_⟩
    show (addition.after r (.error e)).Backed _ _ _
    rw [after_error]
    exact h.mono
  answered r answer d' _ hdoes := by
    refine ⟨trivial, ?_⟩
    show (addition.after r (.ok answer)).Backed _ _ _
    cases hdoes with
    | add hopen =>
      refine ⟨hopen, _, List.mem_append_right _ (List.mem_singleton_self _), ?_⟩
      simp [StagedWrite.addsTo]
    | update hopen =>
      refine Backed.mono (h.of_rows ?_ rfl)
      intro w hw
      exact List.mem_append_left _ hw
    | commit hopen _ =>
      have hcommit := h.commit hopen
      simpa [after, hopen, Session.closed] using hcommit
    | _ => exact h.mono

end Addition

namespace Pool

variable [Message M]

/-- Whether a task backs the start that it is to report. -/
def Vouched (commits : List Commit) (i : Nat) (t : Task σ M) : Prop :=
  ∃ addition, t.rest.Heeds (Addition.regime M) (t.definition.Earns .committed) addition ∧
    addition.Backed commits i t.session

/-- What is true of the rows of a pool, whatever its actions do. -/
structure Booked (start : Store) (p : Pool σ M) : Prop where
  options : p.engine.store.options = start.options
  /-- The store has made the writes of the commits, in that order. -/
  made : ∃ ledger : Ledger, ledger.map Posting.write = p.commits.flatMap Commit.writes ∧
    start.table.writeAll start.options ledger = .ok p.engine.store.table
  tasks : ∀ (i : Nat) (t : Task σ M), p.tasks[i]? = some t → Vouched p.commits i t

variable {start : Store} {p p' : Pool σ M}

omit [Message M] in
/-- What a turn does to the rows is to make the writes that its task commits, if it does. -/
lemma made_of_moved {ε α : Type} {d d' : Delivery σ M} {rest rest' : Script σ M ε α}
    (hmoved : Script.Moved d rest rest' d') :
    d'.store.options = d.store.options ∧
      ∃ ledger : Ledger, ledger.map Posting.write =
          (if d'.session.committed && !d.session.committed then d.session.writes else []) ∧
        d.store.table.writeAll d.store.options ledger = .ok d'.store.table := by
  have hquiet : ∀ d' : Delivery σ M, d'.store = d.store →
      d'.session.committed = d.session.committed → d'.store.options = d.store.options ∧
        ∃ ledger : Ledger, ledger.map Posting.write =
            (if d'.session.committed && !d.session.committed then d.session.writes else []) ∧
          d.store.table.writeAll d.store.options ledger = .ok d'.store.table := by
    intro d' hstore hcommitted
    rw [hstore, hcommitted]
    exact ⟨rfl, [], by simp, rfl⟩
  cases hmoved with
  | ended => exact hquiet _ rfl rfl
  | app => exact hquiet _ rfl rfl
  | refused _ _ => exact hquiet _ rfl rfl
  | answered hdoes =>
    cases hdoes with
    | commit hopen hstore =>
      obtain ⟨hmade, hoptions⟩ := Store.writeAll_of_commit hstore
      refine ⟨hoptions, _, ?_, hmade⟩
      simp [Session.closed, hopen, Function.comp_def]
    | _ => exact hquiet _ rfl rfl

omit [Message M] in
/-- A task that backs the start it is to report leaves a pool booked. -/
lemma Booked.put (h : p.Booked start) {i : Nat} {t' : Task σ M} (ht : Vouched p.commits i t') :
    (p.put i t').Booked start where
  options := h.options
  made := h.made
  tasks := by
    intro j u hu
    rcases getElem?_set_cases hu with ⟨rfl, rfl⟩ | ⟨-, hu⟩
    · exact ht
    · exact h.tasks j u hu

/-- Every change keeps the rows and the starts accounted for. -/
lemma Booked.change {allowed : Definition σ M → Prop} (h : p.Booked start)
    (hchange : Change allowed p p') : p'.Booked start := by
  cases hchange with
  | ticked => exact ⟨h.options, h.made, h.tasks⟩
  | drained => exact ⟨h.options, h.made, h.tasks⟩
  | @launched job registry log b _ _ =>
    refine ⟨h.options, h.made, ?_⟩
    intro j u hu
    rcases getElem?_concat_cases hu with hu | ⟨-, rfl⟩
    · exact h.tasks j u hu
    · exact ⟨.none, Definition.script_heeds _ _ _, trivial⟩
  | @marked i t _ _ hget =>
    apply h.put
    exact h.tasks i t hget
  | @told i t id m next answer awaited hget hrest =>
    apply h.put
    obtain ⟨addition, hheeds, hbacked⟩ := h.tasks i t hget
    rw [hrest] at hheeds
    exact ⟨addition, hheeds.2 answer trivial, hbacked⟩
  | @moved i t rest d hget hmoved =>
    obtain ⟨hoptions, more, hmore, hafter⟩ := made_of_moved hmoved
    refine ⟨hoptions.trans h.options, ?made, ?tasks⟩
    case made =>
      obtain ⟨ledger, hledger, hmade⟩ := h.made
      refine ⟨ledger ++ more, ?_, ?_⟩
      · rw [List.map_append, List.flatMap_append, hledger, hmore]
        show _ = _ ++ List.flatMap Commit.writes (if _ then _ else _)
        split <;> simp_all [Task.delivery]
      · apply InstanceTable.writeAll_append_eq_ok_iff.2
        rw [← h.options] at hmade ⊢
        exact ⟨_, hmade, hafter⟩
    case tasks =>
      intro j u hu
      rcases getElem?_set_cases hu with ⟨rfl, rfl⟩ | ⟨-, hu⟩
      · obtain ⟨addition, hheeds, hbacked⟩ := h.tasks j t hget
        exact hheeds.moved hmoved (Addition.secures hbacked)
      · obtain ⟨addition, hheeds, hbacked⟩ := h.tasks j u hu
        exact ⟨addition, hheeds, hbacked.mono⟩

/-- A pool is booked at every point. -/
lemma booked_run (engine : Engine σ M) (router : Router σ M) (events : List (Event σ M)) :
    (Pool.run { engine, router } events).Booked engine.store := by
  apply run_keeps (fun _ => True) (fun _ _ hchange h => h.change hchange)
  · exact fun _ _ => trivial
  · exact ⟨rfl, ⟨[], rfl, rfl⟩, nofun⟩

omit [Message M] in
/-- Two batches that add a row both make two additions. -/
lemma two_le_additions {commits : List Commit} {c c' : Commit} {key : InstanceKey}
    (hc : c ∈ commits) (hc' : c' ∈ commits) (hne : c ≠ c') (hadds : ∃ w ∈ c.writes, w.addsTo key)
    (hadds' : ∃ w ∈ c'.writes, w.addsTo key) :
    2 ≤ (commits.flatMap Commit.writes).countP (StagedWrite.addsTo key) := by
  have hone : ∀ {commits : List Commit} {c : Commit}, c ∈ commits →
      (∃ w ∈ c.writes, w.addsTo key) →
        0 < (commits.flatMap Commit.writes).countP (StagedWrite.addsTo key) := by
    rintro commits c hc ⟨w, hw, hadds⟩
    exact List.countP_pos_iff.2 ⟨w, List.mem_flatMap.2 ⟨c, hc, hw⟩, hadds⟩
  induction commits with
  | nil => cases hc
  | cons first rest ih =>
    have hfirst : ∀ {c : Commit}, c = first → (∃ w ∈ c.writes, w.addsTo key) →
        0 < first.writes.countP (StagedWrite.addsTo key) := by
      rintro c rfl ⟨w, hw, hadds⟩
      exact List.countP_pos_iff.2 ⟨w, hw, hadds⟩
    rw [List.flatMap_cons, List.countP_append]
    rcases List.mem_cons.1 hc with heq | hrest
    · rcases List.mem_cons.1 hc' with heq' | hrest'
      · exact absurd (heq.trans heq'.symm) hne
      · have := hfirst heq hadds
        have := hone hrest' hadds'
        omega
    · rcases List.mem_cons.1 hc' with heq' | hrest'
      · have := hfirst heq' hadds'
        have := hone hrest hadds
        omega
      · have := ih hrest hrest'
        omega

omit [Message M] in
/-- No two dispatches ever report the start of the same instance, whatever their actions do and
whether versions count or not. -/
lemma Booked.eq_of_started (h : p.Booked start) {i j : Nat} {t u : Task σ M}
    (ht : p.tasks[i]? = some t) (hu : p.tasks[j]? = some u)
    (hname : t.definition.id.name = u.definition.id.name) {id : String}
    {state : t.definition.states.State} {state' : u.definition.states.State}
    (hstarted : t.verdict? = some (.ok (.started id state)))
    (hstarted' : u.verdict? = some (.ok (.started id state'))) : i = j := by
  have hcommit : ∀ {i : Nat} {t : Task σ M} {state : t.definition.states.State},
      p.tasks[i]? = some t → t.verdict? = some (.ok (.started id state)) →
        ∃ c ∈ p.commits, c.task = i ∧ ∃ w ∈ c.writes, w.addsTo ⟨id, t.definition.id.name⟩ := by
    intro i t state hget hverdict
    obtain ⟨addition, hheeds, hbacked⟩ := h.tasks i t hget
    have hearns := (hheeds.settled fun _ _ => ⟨trivial, rfl⟩).1 _ hverdict
    rw [hearns id state rfl] at hbacked
    exact hbacked.2
  obtain ⟨c, hc, rfl, hadds⟩ := hcommit ht hstarted
  obtain ⟨c', hc', rfl, hadds'⟩ := hcommit hu hstarted'
  rw [← hname] at hadds'
  by_contra hne
  -- Both commits have added the row, which the books allow only once.
  have htwice := two_le_additions hc hc' (fun heq => hne (congrArg Commit.task heq)) hadds hadds'
  obtain ⟨ledger, hledger, hmade⟩ := h.made
  have honce := (Ledger.accounts_of_writeAll hmade ⟨id, t.definition.id.name⟩).additions_le
    ⟨id, t.definition.id.name⟩
  rw [Ledger.additions_writesTo] at honce
  rw [← hledger, List.countP_map] at htwice
  have hcount : 2 ≤ ledger.additions ⟨id, t.definition.id.name⟩ := htwice
  split at honce <;> omega

end Pool

/-- The rows of a store that began without any are those of its committed writes, whatever its
sessions stage and however their calls take turns, as long as the rows are not replaced: there is a
row when one was added, none is added twice, the version counts the writes, the state is the one
last written, the row is as old as the commit that added it, and it stays. Where versions count, an
update that was committed carried the number of the writes before it. So of any dispatches no two
report the start of the same instance, and that holds whether versions count or not. -/
theorem versions_accounted [Message M] {ι : Type} [DecidableEq ι] (options : StoreOptions)
    (calls more : List (Call ι)) (hcalls : ∀ rows, .restore rows ∉ calls ++ more)
    (engine : Engine σ M) (router : Router σ M) (events : List (Pool.Event σ M)) :
    let c := (Chronicle.opened { options }).run calls
    let p := Pool.run { engine, router } events
    c.past.ledger.Explains options c.storage.store.table ∧
      (∀ key row, c.storage.store.get? key = some row →
        ∃ row', (c.run more).storage.store.get? key = some row' ∧ row'.createdAt = row.createdAt) ∧
      ∀ (i j : Nat) (t u : Task σ M), p.tasks[i]? = some t → p.tasks[j]? = some u →
        t.definition.id.name = u.definition.id.name → ∀ id state state',
          t.verdict? = some (.ok (.started id state)) →
            u.verdict? = some (.ok (.started id state')) → i = j := by
  intro c p
  refine ⟨?explained, ?stays, ?started⟩
  case explained =>
    apply Chronicle.explains_run
    intro rows hmem
    exact hcalls rows (List.mem_append_left more hmem)
  case stays =>
    intro key row hrow
    apply c.row_stays ?_ hrow
    intro rows hmem
    exact hcalls rows (List.mem_append_right calls hmem)
  case started =>
    intro i j t u ht hu hname id state state' hstarted hstarted'
    have hbooked : p.Booked engine.store := Pool.booked_run engine router events
    exact hbooked.eq_of_started ht hu hname hstarted hstarted'

namespace Racing
open Pipeline

/-- Two sessions add the same row, and the first to commit has it. -/
def adding : List (Call Nat) := [
  .stage 0 (.add (.fresh ⟨"7", "pipeline"⟩ 1)),
  .stage 1 (.add (.fresh ⟨"7", "pipeline"⟩ 2)),
  .commit 0 false 5,
  .commit 1 false 6]

/-- A third one moves the row on, twice in one batch. -/
def moving : List (Call Nat) := [
  .stage 2 (.update ⟨⟨"7", "pipeline"⟩, 3, 1⟩),
  .stage 2 (.update ⟨⟨"7", "pipeline"⟩, 2, 2⟩),
  .commit 2 false 7]

/-- The services of a session are its own. -/
lemma own : (Services.ofSession [] : Services (ServiceName.Provider Unit JobMessage)).OfSession :=
  (Services.complete_ofSession []).ofSession

/-- A dispatch that is to start the job 7. -/
def job : Job Unit JobMessage where
  definition := pipeline Unit
  options := {}
  message := ⟨.start, "7"⟩
  services := .ofSession []
  own := own
  depth := 0

/-- Two dispatches take turns with each other, on a store that does not compare versions. -/
def events : List (Pool.Event Unit JobMessage) :=
  .start job :: .start job :: (List.replicate 12 [.turn 0, .turn 1]).flatten

/-- The row has been written to three times, by two sessions of the three, and of the two dispatches
at most one has started the job. -/
theorem racing_accounted :
    let c := (Chronicle.opened {}).run (adding ++ moving)
    let p := Pool.run { engine := { store := { options := ⟨false⟩ }, app := () } } events
    (∀ rows, .restore rows ∉ (adding ++ moving) ++ []) ∧
      (c.past.ledger.writesTo ⟨"7", "pipeline"⟩).length = 3 ∧
      c.past.ledger.additions ⟨"7", "pipeline"⟩ ≤ 1 ∧
      ∀ (t u : Task Unit JobMessage), p.tasks[0]? = some t → p.tasks[1]? = some u →
        t.definition.id.name = u.definition.id.name → ∀ state state',
          ¬ (t.verdict? = some (.ok (.started "7" state)) ∧
            u.verdict? = some (.ok (.started "7" state'))) := by
  intro c p
  have hcalls : ∀ rows, .restore rows ∉ (adding ++ moving) ++ [] := by
    simp [adding, moving]
  obtain ⟨hexplained, -, hstarted⟩ := versions_accounted {} (adding ++ moving) [] hcalls
    { store := { options := ⟨false⟩ }, app := () } {} events
  refine ⟨hcalls, ?_, hexplained.single _, ?_⟩
  · have hversion : (c.storage.store.get? ⟨"7", "pipeline"⟩).map (fun row => row.record.version) =
        some 3 := by decide +kernel
    obtain ⟨row, hrow, hthree⟩ := Option.map_eq_some_iff.1 hversion
    rw [← hexplained.version _ row hrow, hthree]
  · rintro t u ht hu hname state state' ⟨hfirst, hsecond⟩
    exact absurd (hstarted 0 1 t u ht hu hname "7" state state' hfirst hsecond) (by decide)

end Racing

end Saga
