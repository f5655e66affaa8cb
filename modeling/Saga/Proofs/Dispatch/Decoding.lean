import Saga.Proofs.Dispatch.Stages
import Saga.Proofs.Script.Regime
import Saga.Proofs.Storage.Ledger

/-!
# Rows that decode

A `Fit` says which ordinals the row under a key may have. A definition serves it if the ordinals
that fit its own rows are just those of its states (`Definition.Serves`). Then a dispatch whose
actions stage nothing and forward nothing is a script under a regime: what it looks up fits, since
all rows do and all that is staged does, so it decodes, and what it stages fits again
(`Definition.script_fits`, `Fit.secures`). Hence it leaves rows that fit, and does not fail for an
ordinal that stands for no state (`Definition.dispatch_fits`).
-/

namespace Saga

variable {σ M : Type}

/-- Neither stages a row nor has another definition do anything. -/
def Request.StagesNothing : Request M → Prop
  | .add _ | .update _ | .forward _ _ => False
  | _ => True

/-- Whether an error is anything but that a stored ordinal stands for no state. -/
def EngineError.NotOfOrdinal (e : EngineError) : Prop :=
  ∀ definition ordinal, e ≠ .unknownStateOrdinal definition ordinal

/-- Even an action that fails for an ordinal makes its rule fail for the action. -/
lemma EngineError.ofAction_notOfOrdinal (definition message : String) (index : Nat)
    (failure : Failure) : (EngineError.ofAction definition message index failure).NotOfOrdinal := by
  intro _ _
  unfold EngineError.ofAction
  split <;> exact nofun

/-- Which ordinals the row under a key may have. -/
abbrev Fit := InstanceKey → Int32 → Prop

namespace Fit

/-- Whether all rows of a store fit. -/
def Rows (fits : Fit) (s : Store) : Prop :=
  ∀ key row, s.get? key = some row → fits key row.record.state

/-- Whether all that a session has staged fits. -/
def Staged (fits : Fit) (s : Session) : Prop :=
  ∀ w ∈ s.writes, fits w.record.key w.record.state

/-- Only what fits is staged and found, and nothing is forwarded. -/
def regime (fits : Fit) (M : Type) : Regime M EngineError Unit where
  permits _
    | .add record | .update record => fits record.key record.state
    | .forward _ _ => False
    | _ => True
  meets _
    | .find key, .ok (some record) => record.key = key ∧ fits key record.state
    | _, .error e => e.Refusal
    | _, .ok _ => True
  fails := EngineError.NotOfOrdinal

variable {fits : Fit} {store store' : Store} {session : Session}

/-- What the regime of a fit permits forwards nothing. -/
lemma not_forwards {r : Request M} (h : (fits.regime M).permits () r) : ¬ r.Forwards := by
  cases r with
  | forward definition message => exact h.elim
  | _ => exact id

/-- A batch of writes that fit leaves rows that fit. -/
lemma Rows.commit {now : Timestamp} {messages : List Envelope} (h : fits.Rows store)
    (hstaged : fits.Staged session)
    (hcommit : store.commit now session.writes messages = .ok store') : fits.Rows store' := by
  intro key row hrow
  cases hlast : (session.writes.filter fun w => w.record.key = key).getLast? with
  | none =>
    obtain ⟨postings, hpostings, haccounts⟩ := Store.accounts_of_commit hcommit key
    rw [List.getLast?_eq_none_iff.1 hlast, List.map_eq_nil_iff] at hpostings
    rw [hpostings, hrow] at haccounts
    exact h key row haccounts.of_nil.symm
  | some w =>
    -- The row has the state of the last write to it, which was staged.
    obtain ⟨row', hrow', hstate⟩ := Store.state_of_commit hcommit hlast
    cases hrow.symm.trans hrow'
    obtain ⟨hw, hkey⟩ := List.mem_filter.1 (List.mem_of_getLast? hlast)
    have hfits := hstaged w hw
    rw [of_decide_eq_true hkey] at hfits
    rw [hstate]
    exact hfits

/-- A look-up finds what fits. -/
lemma read (hrows : fits.Rows store) (hstaged : fits.Staged session) {key : InstanceKey}
    {record : InstanceRecord} (h : session.read store key = some record) :
    record.key = key ∧ fits key record.state := by
  unfold Session.read at h
  cases hfound : session.staged? key with
  | some staged =>
    rw [hfound] at h
    cases h
    have hkey : record.key = key := by
      simpa using List.find?_some hfound
    obtain ⟨w, hw, rfl⟩ := List.mem_map.1 (List.mem_of_find?_eq_some hfound)
    have hfits := hstaged w (List.mem_reverse.1 hw)
    rw [hkey] at hfits
    exact ⟨hkey, hfits⟩
  | none =>
    rw [hfound] at h
    obtain ⟨row, hrow, rfl⟩ := Option.map_eq_some_iff.1 h
    exact ⟨InstanceTable.key_of_get? hrow, hrows key row hrow⟩

/-- One more write that fits leaves a session in which all that is staged fits. -/
lemma Staged.concat {w : StagedWrite} {messages : List Envelope} {committed : Bool}
    (h : fits.Staged session) (hw : fits w.record.key w.record.state) :
    fits.Staged ⟨session.writes ++ [w], messages, committed⟩ := by
  intro other hmem
  rcases List.mem_append.1 hmem with hold | hnew
  · exact h other hold
  · cases List.mem_singleton.1 hnew
    exact hw

end Fit

section Orderly

variable [Message M]

/-- Whether the rows of an engine fit, and no action of a kept blueprint writes to them. -/
structure Engine.Orderly (fits : Fit) (e : Engine σ M) : Prop where
  rows : fits.Rows e.store
  registry : e.registry.Only Request.StagesNothing

/-- Whether an engine is in order, and what a delivery on it has staged as well. -/
structure Delivery.Orderly (fits : Fit) (d : Delivery σ M) : Prop extends
    Engine.Orderly fits d.toEngine where
  staged : fits.Staged d.session

variable {fits : Fit} {d : Delivery σ M}

/-- Under the regime of a fit everything stays in order. -/
lemma Fit.secures (h : d.Orderly fits) :
    (fits.regime M).Secures () d fun _ d' => d'.Orderly fits where
  ended := h
  app _ := ⟨⟨h.rows, h.registry⟩, h.staged⟩
  refused r e hrefusal := by
    refine ⟨?_, h⟩
    cases r <;> exact hrefusal
  answered r answer d' hpermits hdoes := by
    cases hdoes with
    | @find key =>
      refine ⟨?_, h⟩
      show (fits.regime M).meets () (.find key) (.ok (d.session.read d.store key))
      cases hread : d.session.read d.store key with
      | none => trivial
      | some record => exact Fit.read h.rows h.staged hread
    | add _ => exact ⟨trivial, ⟨h.rows, h.registry⟩, h.staged.concat hpermits⟩
    | update _ => exact ⟨trivial, ⟨h.rows, h.registry⟩, h.staged.concat hpermits⟩
    | commit _ hstore =>
      exact ⟨trivial, ⟨h.rows.commit h.staged hstore, h.registry⟩, nofun⟩
    | _ => exact ⟨trivial, ⟨h.rows, h.registry⟩, h.staged⟩

end Orderly

/-- Whether the ordinals that fit the rows of a definition are those of its states. -/
structure Definition.Serves (fits : Fit) (d : Definition σ M) : Prop where
  writes : ∀ key (state : d.states.State), key.definition = d.id.name → fits key state.ordinal
  reads : ∀ key ordinal, key.definition = d.id.name → fits key ordinal →
    ∃ state, d.states.ofOrdinal? ordinal = some state

namespace Script

variable {fits : Fit} {α : Type}

/-- A request that is permitted keeps to the regime. -/
lemma ask_fits {r : Request M} {post : r.Answer → Prop} (hpermits : (fits.regime M).permits () r)
    (hok : ∀ a, (fits.regime M).meets () r (.ok a) → post a) :
    (ask r : Script σ M EngineError r.Answer).Heeds (fits.regime M) (fun _ a => post a) () := by
  refine .ask hpermits ?_ hok
  intro e hmeets
  have hrefusal : e.Refusal := by
    cases r <;> exact hmeets
  exact hrefusal.ne_unknownStateOrdinal

/-- Checking for cancellation keeps to the regime. -/
lemma checkLive_fits :
    (checkLive : Script σ M EngineError Unit).Heeds (fits.regime M) (fun _ _ => True) () := by
  have hask : (ask .isCancelled : Script σ M EngineError Bool).Heeds (fits.regime M)
      (fun _ _ => True) () := ask_fits trivial fun _ _ => trivial
  refine hask.bind fun _ cancelled _ => ?_
  cases cancelled with
  | true => exact nofun
  | false => trivial

/-- Writing to the log keeps to the regime. -/
lemma report_fits (severity : Severity) (source : LogSource) (text : String) :
    (report severity source text : Script σ M EngineError Unit).Heeds (fits.regime M)
      (fun _ _ => True) () :=
  ask_fits trivial fun _ _ => trivial

/-- Actions that stage nothing keep to the regime, one after the other. -/
lemma runActions_fits (definition message : String) (m : M) (index : Nat)
    {actions : List (Action σ M)} (h : ∀ run ∈ actions, (run m).Only Request.StagesNothing) :
    (runActions definition message m index actions).Heeds (fits.regime M) (fun _ _ => True) () := by
  induction actions generalizing index with
  | nil => trivial
  | cons action rest ih =>
    refine checkLive_fits.bind fun _ _ _ => ?_
    have haction := (h action List.mem_cons_self)
    refine (Heeds.of_only haction (EngineError.ofAction definition message index) ?_ ?_ ?_).bind
      fun _ _ _ => ?_
    · intro r hr
      cases r with
      | add record => exact hr.elim
      | update record => exact hr.elim
      | forward id message => exact hr.elim
      | _ => trivial
    · exact fun _ _ _ => rfl
    · exact EngineError.ofAction_notOfOrdinal definition message index
    · apply ih
      intro other hmem
      exact h other (List.mem_cons_of_mem action hmem)

/-- Staging a write that fits keeps to the regime. -/
lemma staging_fits {write : StagedWrite} {a : α} (h : fits write.record.key write.record.state) :
    (staging write a : Script σ M EngineError α).Heeds (fits.regime M) (fun _ _ => True) () := by
  refine checkLive_fits.bind fun _ _ _ => ?_
  have hstage : (stage write : Script σ M EngineError Unit).Heeds (fits.regime M)
      (fun _ _ => True) () := by
    cases write with
    | add record => exact ask_fits h fun _ _ => trivial
    | update record => exact ask_fits h fun _ _ => trivial
  exact hstage.bind fun _ _ _ => trivial

end Script

namespace Definition
open Script

variable [Message M] {d : Definition σ M} {fits : Fit} {b : Blueprint σ M d.states} {m : M}

/-- What is found fits the key of the instance, which is one of the definition's own. -/
lemma locate_fits (b : Blueprint σ M d.states) (m : M) :
    (d.locate b m).Heeds (fits.regime M)
      (fun _ located => located.1.definition = d.id.name ∧ ∀ record, located.2 = some record →
        record.key = located.1 ∧ fits located.1 record.state) () := by
  have hcorrelate : (Script.ofExcept (b.correlate m) : Script σ M EngineError String).Heeds
      (fits.regime M) (fun _ _ => True) () := by
    unfold Blueprint.correlate
    split
    · exact nofun
    · split
      · exact nofun
      · trivial
  unfold Definition.locate
  refine hcorrelate.bind fun _ id _ => ?_
  have hrequire : ∀ name, (Script.require name : Script σ M EngineError Unit).Heeds
      (fits.regime M) (fun _ _ => True) () := fun _ => ask_fits trivial fun _ _ => trivial
  refine (hrequire .repository).bind fun _ _ _ => ?_
  refine (hrequire .unitOfWork).bind fun _ _ _ => ?_
  refine checkLive_fits.bind fun _ _ _ => ?_
  have hfind : (Script.find ⟨id, d.id.name⟩ : Script σ M EngineError _).Heeds (fits.regime M)
      (fun _ found => ∀ record, found = some record →
        record.key = ⟨id, d.id.name⟩ ∧ fits ⟨id, d.id.name⟩ record.state) () := by
    refine ask_fits trivial ?_
    rintro found hmeets record rfl
    exact hmeets
  exact hfind.bind fun _ found hfound => ⟨rfl, hfound⟩

/-- A reaction to a row that fits decodes it, and stages one that fits. -/
lemma react_fits (hserves : d.Serves fits) (hb : b.Only Request.StagesNothing m)
    (options : DispatchOptions) {key : InstanceKey} (hkey : key.definition = d.id.name)
    {found : Option InstanceRecord}
    (hfound : ∀ record, found = some record → record.key = key ∧ fits key record.state) :
    (d.react options b key m found).Heeds (fits.regime M) (fun _ _ => True) () := by
  cases found with
  | none =>
    simp only [Definition.react]
    cases hrule : b.starts.get? (Message.type m) with
    | none =>
      rw [begin_of_none hrule]
      exact (report_fits _ _ _).bind fun _ _ _ => trivial
    | some rule =>
      rw [begin_of_some hrule]
      have hactions : ∀ run ∈ rule.actions, (run m).Only Request.StagesNothing :=
        fun run hmem => hb run (.inl ⟨rule, hrule, hmem⟩)
      refine (runActions_fits _ _ m 0 hactions).bind fun _ _ _ => ?_
      exact staging_fits (hserves.writes key rule.target hkey)
  | some record =>
    obtain ⟨rfl, hfits⟩ := hfound record rfl
    obtain ⟨state, hstate⟩ := hserves.reads record.key record.state hkey hfits
    simp only [Definition.react]
    cases hrule : b.transfers.get? (state, Message.type m) with
    | none =>
      rw [moveOn_of_none hstate hrule]
      refine (report_fits _ _ _).bind fun _ _ _ => ?_
      split
      · exact staging_fits (hserves.writes record.key state hkey)
      · trivial
    | some rule =>
      rw [moveOn_of_some hstate hrule]
      have hactions : ∀ run ∈ rule.actions, (run m).Only Request.StagesNothing :=
        fun run hmem => hb run (.inr ⟨state, rule, hrule, hmem⟩)
      refine (runActions_fits _ _ m 0 hactions).bind fun _ _ _ => ?_
      exact staging_fits (hserves.writes record.key (rule.target.getD state) hkey)

/-- The script of a dispatch keeps to the regime of a fit that its definition serves. -/
lemma script_fits (hserves : d.Serves fits) (hb : b.Only Request.StagesNothing m)
    (options : DispatchOptions) :
    (d.script options b m).Heeds (fits.regime M) (fun _ _ => True) () := by
  rw [script_eq]
  refine (locate_fits b m).bind ?_
  rintro _ ⟨key, found⟩ ⟨hkey, hfound⟩
  refine (react_fits hserves hb options hkey hfound).bind fun _ outcome _ => ?_
  unfold Definition.conclude
  split
  · have hcommit : (Script.commit : Script σ M EngineError Unit).Heeds (fits.regime M)
        (fun _ _ => True) () := ask_fits trivial fun _ _ => trivial
    exact hcommit.bind fun _ _ _ => (report_fits _ _ _).bind fun _ _ _ => trivial
  · trivial

/-- A dispatch leaves an engine in order, and does not fail for an ordinal. -/
lemma dispatch_fits (hserves : d.Serves fits) (hquiet : d.RulesOnly Request.StagesNothing)
    (options : DispatchOptions) {scope : Scope σ M} (hown : scope.services.OfSession) (m : M)
    {s : Delivery σ M} (hs : s.Orderly fits) :
    (Run.final (d.dispatch options scope m s)).Orderly fits ∧
      ∀ e, Run.result (d.dispatch options scope m s) = .error e → e.NotOfOrdinal := by
  rw [dispatch_apply]
  rcases Registry.blueprint_cases d (Message.type m) s with
    ⟨e, hfetch⟩ | ⟨b, registry, log, hfetch, horigin⟩
  · rw [hfetch]
    refine ⟨hs, ?_⟩
    rintro _ ⟨⟩
    rcases Registry.blueprint_error hfetch with ⟨cause, -, rfl⟩ | ⟨-, rfl⟩ <;> exact nofun
  · rw [hfetch]
    obtain ⟨hb, hregistry⟩ := hs.registry.of_origin hquiet horigin
    have hfetched : Delivery.Orderly fits { s with registry, log } :=
      ⟨⟨hs.rows, hregistry⟩, hs.staged⟩
    obtain ⟨-, horderly, -, hfails⟩ := (script_fits hserves (hb m) options).run hown
      (fun _ _ => Fit.not_forwards) (fun _ _ => Fit.secures) hfetched
    exact ⟨horderly, hfails⟩

end Definition

end Saga
