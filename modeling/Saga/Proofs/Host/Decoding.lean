import Saga.Pipeline
import Saga.Proofs.Dispatch.Decoding
import Saga.Proofs.Host.Events
import Saga.Proofs.Interleaving.Changes
import Saga.Proofs.StateSet

/-!
# The rows of a host decode

A host gives every partition name to one definition, also when subscriptions of others fail in
between. What fits a row is therefore an ordinal of the one definition that owns its partition
(`Host.Fits`), and every subscribed definition serves this (`Host.Ordered.serves`). So whatever
happens to a host whose store began without rows, its rows decode and no delivery fails for an
ordinal (`Host.rows_decode`).
-/

namespace Saga

variable {σ M : Type}

variable [Message M]

namespace Pool

variable {fits : Fit} {p p' : Pool σ M} {allowed : Definition σ M → Prop}

/-- Whether the engine of a pool is in order, and all tasks keep it so. -/
structure Orderly (fits : Fit) (p : Pool σ M) : Prop where
  engine : p.engine.Orderly fits
  tasks : ∀ (i : Nat) (t : Task σ M), p.tasks[i]? = some t →
    t.rest.Heeds (fits.regime M) (fun _ _ => True) () ∧ fits.Staged t.session

/-- A task that keeps to the regime leaves a pool in order. -/
lemma Orderly.put (h : p.Orderly fits) {i : Nat} {t : Task σ M}
    (ht : t.rest.Heeds (fits.regime M) (fun _ _ => True) () ∧ fits.Staged t.session) :
    (p.put i t).Orderly fits where
  engine := h.engine
  tasks := by
    intro j u hu
    rcases getElem?_set_cases hu with ⟨rfl, rfl⟩ | ⟨-, hu⟩
    · exact ht
    · exact h.tasks j u hu

/-- No task forwards anything. -/
lemma Orderly.not_forwards (h : p.Orderly fits) {i : Nat} {t : Task σ M}
    (hget : p.tasks[i]? = some t) : ¬ t.rest.Forwards := by
  intro hforwards
  obtain ⟨id, m, next, hrest⟩ := Script.eq_of_forwards hforwards
  have hheeds := (h.tasks i t hget).1
  rw [hrest] at hheeds
  exact hheeds.1

/-- Every change keeps a pool in order if what may start serves the fit and stages nothing. -/
lemma Orderly.change (h : p.Orderly fits) (hchange : Change allowed p p')
    (hallowed : ∀ d, allowed d → d.Serves fits ∧ d.RulesOnly Request.StagesNothing) :
    p'.Orderly fits := by
  cases hchange with
  | ticked => exact ⟨⟨h.engine.rows, h.engine.registry⟩, h.tasks⟩
  | drained => exact ⟨⟨h.engine.rows, h.engine.registry⟩, h.tasks⟩
  | @launched job registry log b hasked horigin =>
    have hjob : allowed job.definition := by
      rcases hasked with hstarted | ⟨-, i, t, hget, hforwards⟩
      · exact hstarted
      · exact absurd hforwards (h.not_forwards hget)
    obtain ⟨hserves, hquiet⟩ := hallowed job.definition hjob
    obtain ⟨hb, hregistry⟩ := h.engine.registry.of_origin hquiet horigin
    refine ⟨⟨h.engine.rows, hregistry⟩, ?_⟩
    intro j u hu
    rcases getElem?_concat_cases hu with hu | ⟨-, rfl⟩
    · exact h.tasks j u hu
    · exact ⟨Definition.script_fits hserves (hb job.message) job.options, nofun⟩
  | @marked i t _ _ hget =>
    apply h.put
    exact h.tasks i t hget
  | @told i t id m next answer awaited hget hrest =>
    have hforwards : t.rest.Forwards := by
      rw [hrest]
      trivial
    exact absurd hforwards (h.not_forwards hget)
  | @moved i t rest d hget hmoved =>
    obtain ⟨hheeds, hstaged⟩ := h.tasks i t hget
    have hdelivery : (t.delivery p.engine).Orderly fits :=
      ⟨⟨h.engine.rows, h.engine.registry⟩, hstaged⟩
    obtain ⟨_, hrest, hd⟩ := hheeds.moved hmoved (Fit.secures hdelivery)
    refine ⟨hd.toOrderly, ?_⟩
    intro j u hu
    rcases getElem?_set_cases hu with ⟨rfl, rfl⟩ | ⟨-, hu⟩
    · exact ⟨hrest, hd.staged⟩
    · exact h.tasks j u hu

/-- A task of a pool in order does not fail for an ordinal. -/
lemma Orderly.verdict (h : p.Orderly fits) {i : Nat} {t : Task σ M} (hget : p.tasks[i]? = some t)
    {e : EngineError} (hverdict : t.verdict? = some (.error e)) : e.NotOfOrdinal :=
  ((h.tasks i t hget).1.settled fun _ _ => ⟨trivial, rfl⟩).2 e hverdict

end Pool

namespace Host

/-- What fits a row of a host: an ordinal of a definition that is subscribed under the name of the
partition. -/
def Fits (h : Host σ M) : Fit := fun key ordinal =>
  ∃ d, h.Subscribed d ∧ d.id.name = key.definition ∧
    ∃ state : d.states.State, state.ordinal = ordinal

/-- What is true of a host whatever has happened to it, when only definitions that are `known` have
asked to subscribe. -/
structure Ordered (known : Definition σ M → Prop) (h : Host σ M) : Prop where
  handlers : ∀ trigger, ∀ handler ∈ h.handlersOf trigger, ∃ d, handler = .workflow d ∧ known d
  owned : ∀ d, h.Subscribed d → h.owners.get? d.id.name = some d.id
  engine : h.engine.Orderly h.Fits

omit [Message M] in
/-- A name that is not taken from a definition is owned by nobody else. -/
lemma eq_of_not_nameTaken {h : Host σ M} {id owner : DefinitionId} (hfree : h.nameTaken id = false)
    (howner : h.owners.get? id.name = some owner) : owner = id := by
  unfold nameTaken at hfree
  rw [howner] at hfree
  simpa using hfree

namespace Ordered

variable {known : Definition σ M → Prop} {h : Host σ M} {d d' : Definition σ M}

/-- Who is subscribed is known. -/
lemma known_of_subscribed (hh : h.Ordered known) (hd : h.Subscribed d) : known d := by
  obtain ⟨trigger, hmem⟩ := hd
  obtain ⟨d', heq, hknown⟩ := hh.handlers trigger _ hmem
  cases heq
  exact hknown

section Vetted

variable (hident : ∀ d d', known d → known d' → d.id = d'.id → d = d')
  (hquiet : ∀ d, known d → d.RulesOnly Request.StagesNothing)

include hident

/-- A partition name belongs to one subscribed definition. -/
lemma eq_of_name (hh : h.Ordered known) (hd : h.Subscribed d) (hd' : h.Subscribed d')
    (hname : d.id.name = d'.id.name) : d = d' := by
  have howned := hh.owned d hd
  rw [hname, hh.owned d' hd'] at howned
  apply hident d d' (hh.known_of_subscribed hd) (hh.known_of_subscribed hd')
  exact (Option.some.inj howned).symm

/-- The ordinals that a host lets into the rows of a subscribed definition are those of its
states. -/
lemma serves (hh : h.Ordered known) (hd : h.Subscribed d) : d.Serves h.Fits where
  writes key state hkey := ⟨d, hd, hkey.symm, state, rfl⟩
  reads key ordinal hkey hfits := by
    obtain ⟨d', hd', hname, state, rfl⟩ := hfits
    obtain rfl := hh.eq_of_name hident hd' hd (hname.trans hkey)
    exact ⟨state, StateSet.ofOrdinal?_ordinal state⟩

include hquiet

/-- Overlapping deliveries of a host in order are a pool in order. -/
lemma overlap (hh : h.Ordered known) (moves : List (Move M)) :
    (h.overlap moves).Orderly h.Fits := by
  apply Pool.run_keeps h.Subscribed
  · intro p p' hchange hp
    apply hp.change hchange
    intro d hd
    exact ⟨hh.serves hident hd, hquiet d (hh.known_of_subscribed hd)⟩
  · intro job hmem
    exact subscribed_of_event hmem
  · exact ⟨hh.engine, nofun⟩

/-- A delivery leaves the engine in order, and no handler fails for the ordinal in a row. -/
lemma deliver (hh : h.Ordered known) (m : M) (cancelled : Bool) :
    (h.deliver m cancelled).2.engine.Orderly h.Fits ∧
      ∀ failure ∈ (h.deliver m cancelled).1.1.failed, failure.2.NotOfOrdinal := by
  apply deliver_keeps
  · intro engine log hengine
    exact ⟨hengine.rows, hengine.registry⟩
  · intro handler hmem s hsession hs
    obtain ⟨d, rfl, hknown⟩ := hh.handlers _ handler hmem
    have hserves := hh.serves hident ⟨_, hmem⟩
    have hown := h.router.services_ofSession
    have horderly : s.Orderly h.Fits := by
      refine ⟨hs, ?_⟩
      rw [hsession]
      exact nofun
    obtain ⟨hkept, hfails⟩ :=
      Definition.dispatch_fits hserves (hquiet d hknown) h.router.options hown m horderly
    simp only [runHandler]
    rw [Definition.handle_apply]
    cases hrun : d.dispatch h.router.options h.router.scope m s with
    | ok outcome s' =>
      rw [hrun] at hkept
      exact ⟨hkept.toOrderly, nofun⟩
    | error e s' =>
      rw [hrun] at hkept hfails
      refine ⟨hkept.toOrderly, ?_⟩
      rintro _ ⟨⟩
      exact hfails e rfl
  · exact hh.engine

omit hident in
/-- A subscription keeps a host in order: the name is nobody else's, or it is refused. -/
lemma subscribe (hh : h.Ordered known) (hd : known d) (trigger : MessageType) :
    (Run.final (Host.subscribe d trigger h)).Ordered known := by
  rcases subscribe_cases h d trigger with ⟨e, hrefused⟩ | ⟨h', hok, haccepted⟩
  · rw [hrefused]
    exact hh
  · rw [hok]
    show h'.Ordered known
    obtain ⟨b, registry, log, horigin, hengine⟩ := haccepted.engine
    have hadded : ∀ other handler, handler ∈ h'.handlersOf other →
        handler ∈ h.handlersOf other ∨ handler = .workflow d := by
      intro other handler hmem
      rw [haccepted.handlers other] at hmem
      split at hmem
      · exact (List.mem_append.1 hmem).imp_right List.mem_singleton.1
      · exact .inl hmem
    have hkept : ∀ {d'}, h.Subscribed d' → h'.Subscribed d' := by
      rintro d' ⟨other, hmem⟩
      refine ⟨other, ?_⟩
      rw [haccepted.handlers other]
      split
      · exact List.mem_append_left _ hmem
      · exact hmem
    refine ⟨?handlers, ?owned, ?engine⟩
    case handlers =>
      intro other handler hmem
      rcases hadded other handler hmem with hold | rfl
      · exact hh.handlers other handler hold
      · exact ⟨d, rfl, hd⟩
    case owned =>
      rintro d' ⟨other, hmem⟩
      rw [haccepted.owners, Keyed.get?_insert]
      rcases hadded other _ hmem with hold | hnew
      · have howned := hh.owned d' ⟨other, hold⟩
        split
        · next hname =>
          rw [← hname] at howned
          rw [eq_of_not_nameTaken haccepted.free howned]
        · exact howned
      · cases hnew
        rw [if_pos rfl]
    case engine =>
      rw [hengine]
      obtain ⟨-, hregistry⟩ := hh.engine.registry.of_origin (hquiet d hd) horigin
      refine ⟨?_, hregistry⟩
      intro key row hrow
      obtain ⟨d', hd', hfits⟩ := hh.engine.rows key row hrow
      exact ⟨d', hkept hd', hfits⟩

/-- Every event leaves a host in order, if only known definitions ask to subscribe. -/
lemma step (hh : h.Ordered known) {event : Event σ M}
    (hevent : ∀ d trigger, event = .subscribe d trigger → known d) :
    (h.step event).Ordered known := by
  cases event with
  | subscribe d trigger => exact hh.subscribe hquiet (hevent d trigger rfl) trigger
  | deliver m cancelled =>
    exact ⟨hh.handlers, hh.owned, (hh.deliver hident hquiet m cancelled).1⟩
  | overlap moves => exact ⟨hh.handlers, hh.owned, (hh.overlap hident hquiet moves).engine⟩
  | tick now => exact ⟨hh.handlers, hh.owned, hh.engine.rows, hh.engine.registry⟩
  | drain => exact ⟨hh.handlers, hh.owned, hh.engine.rows, hh.engine.registry⟩

end Vetted

/-- A new host on a store without rows is in order. -/
lemma opened {store : Store} (hempty : ∀ key, store.get? key = none) (app : σ) (now : Timestamp)
    (router : Router σ M) :
    ({ engine := { store, app, now }, router } : Host σ M).Ordered known where
  handlers := nofun
  owned := by
    rintro d ⟨trigger, hmem⟩
    cases hmem
  engine := by
    refine ⟨?_, nofun⟩
    intro key row hrow
    exact absurd ((hempty key).symm.trans hrow) nofun

end Ordered

/-- Stored states always decode. Let definitions whose actions neither stage rows nor forward
messages subscribe to a host, in any order and also in vain, while messages are delivered, alone or
overlapping, on a store that had no rows at first. Then each row is in the partition of one
subscribed definition, which owns its name, and the ordinal of the row is that of one of the states
of this definition. So no delivery fails for an ordinal that stands for no state, be it alone or
among others, even if several definitions claim one name. Definitions with the same identity are
taken to be the same. -/
theorem rows_decode (store : Store) (app : σ) (now : Timestamp) (router : Router σ M)
    (events : List (Event σ M)) (hempty : ∀ key, store.get? key = none)
    (hident : ∀ d d', Applicant events d → Applicant events d' → d.id = d'.id → d = d')
    (hquiet : ∀ d, Applicant events d → d.RulesOnly Request.StagesNothing) :
    let h := Host.run { engine := { store, app, now }, router } events
    (∀ key row, h.engine.store.get? key = some row →
      ∃ d, h.Subscribed d ∧ d.id.name = key.definition ∧
        h.owners.get? key.definition = some d.id ∧
        (∃ state, d.decodeState row.record.state = .ok state ∧ state.ordinal = row.record.state) ∧
        ∀ d', h.Subscribed d' → d'.id.name = key.definition → d' = d) ∧
      (∀ m cancelled, ∀ failure ∈ (h.deliver m cancelled).1.1.failed,
        ∀ name ordinal, failure.2 ≠ .unknownStateOrdinal name ordinal) ∧
      ∀ (moves : List (Move M)) (i : Nat) (t : Task σ M), (h.overlap moves).tasks[i]? = some t →
        ∀ name ordinal, t.verdict? ≠ some (.error (.unknownStateOrdinal name ordinal)) := by
  intro h
  have hordered : h.Ordered (Applicant events) := by
    apply run_keeps
    · intro h event hmem hh
      apply hh.step hident hquiet
      rintro d trigger rfl
      exact ⟨trigger, hmem⟩
    · exact Ordered.opened hempty app now router
  refine ⟨?rows, ?alone, ?overlapping⟩
  case rows =>
    intro key row hrow
    obtain ⟨d, hd, hname, state, hstate⟩ := hordered.engine.rows key row hrow
    refine ⟨d, hd, hname, ?owner, ⟨state, ?decodes, hstate⟩, ?single⟩
    case owner =>
      rw [← hname]
      exact hordered.owned d hd
    case decodes =>
      unfold Definition.decodeState
      rw [← hstate, StateSet.ofOrdinal?_ordinal]
    case single =>
      intro d' hd' hname'
      exact hordered.eq_of_name hident hd' hd (hname'.trans hname.symm)
  case alone =>
    intro m cancelled failure hfailure
    exact (hordered.deliver hident hquiet m cancelled).2 failure hfailure
  case overlapping =>
    intro moves i t hget name ordinal hverdict
    have horderly := hordered.overlap hident hquiet moves
    exact horderly.verdict hget hverdict name ordinal rfl

namespace Clash
open Pipeline

/-- The only state of a workflow that is not the pipeline. -/
def away : StateSet := ⟨"Away", [⟨"Away", 7⟩], by decide⟩

/-- The name of the pipeline, claimed by a definition that does not compile for want of a selector.
-/
def broken : Definition Unit JobMessage where
  id := ⟨"pipeline", 1⟩
  states := away
  rules := [.start Event.start.type ⟨⟨"Away", 7⟩, by decide⟩ []]

/-- The name of the pipeline, claimed by a definition with another state. -/
def impostor : Definition Unit JobMessage where
  id := ⟨"pipeline", 2⟩
  states := away
  rules := [
    .start Event.heartbeat.type ⟨⟨"Away", 7⟩, by decide⟩ [idle],
    .correlate Event.heartbeat.type JobMessage.id]

/-- The pipeline gets its name after one that fails and keeps it from one that comes late, while two
jobs run, in part at the same time. -/
def events : List (Event Unit JobMessage) := [
  .subscribe broken Event.start.type,
  .subscribe (pipeline Unit) Event.start.type,
  .deliver ⟨.start, "7"⟩ false,
  .subscribe impostor Event.heartbeat.type,
  .subscribe (pipeline Unit) Event.complete.type,
  .overlap ([.handle ⟨.complete, "7"⟩ 0 false, .handle ⟨.start, "8"⟩ 0 false] ++
    (List.replicate 12 [.turn 0, .turn 1]).flatten),
  .deliver ⟨.heartbeat, "7"⟩ false]

/-- Three definitions ask to subscribe. -/
lemma applicant_cases {d : Definition Unit JobMessage} (h : Applicant events d) :
    d = broken ∨ d = pipeline Unit ∨ d = impostor := by
  obtain ⟨trigger, hmem⟩ := h
  simp only [events, List.mem_cons, Event.subscribe.injEq, reduceCtorEq, List.not_mem_nil] at hmem
  grind

/-- None of them stages a row by an action. -/
lemma quiet {d : Definition Unit JobMessage} (h : Applicant events d) :
    d.RulesOnly Request.StagesNothing := by
  have hidle : ∀ rule ∈ d.rules, ∀ run ∈ rule.actions, run = idle := by
    have hone : ∀ run ∈ [idle], run = (idle : Action Unit JobMessage) := by simp
    rcases applicant_cases h with rfl | rfl | rfl
    · exact List.forall_mem_cons.2 ⟨nofun, nofun⟩
    · refine List.forall_mem_cons.2 ⟨hone, List.forall_mem_cons.2 ⟨hone, ?_⟩⟩
      -- The other rules have no actions.
      have hnone : (pipeline Unit).rules.drop 2 |>.all fun rule => rule.actions.isEmpty := rfl
      intro rule hrule run hrun
      have hempty := List.all_eq_true.1 hnone rule hrule
      rw [List.isEmpty_iff.1 hempty] at hrun
      cases hrun
    · exact List.forall_mem_cons.2 ⟨hone, List.forall_mem_cons.2 ⟨nofun, nofun⟩⟩
  intro rule hrule run hrun m
  rw [hidle rule hrule run hrun]
  trivial

/-- The host after all this. -/
def host : Host Unit JobMessage :=
  Host.run { engine := { store := {}, app := (), now := 0 }, router := {} } events

/-- The job 7 has come to its end, in a state of the one definition that has the name, and nothing
that is delivered next fails for an ordinal. -/
theorem clash_decodes :
    (∀ key, ({} : Store).get? key = none) ∧
      (∀ d d', Applicant events d → Applicant events d' → d.id = d'.id → d = d') ∧
      (∀ d, Applicant events d → d.RulesOnly Request.StagesNothing) ∧
      (∃ d state, host.Subscribed d ∧ d.decodeState 2 = .ok state ∧
        ∀ d', host.Subscribed d' → d'.id.name = "pipeline" → d' = d) ∧
      ∀ m cancelled, ∀ failure ∈ (host.deliver m cancelled).1.1.failed,
        ∀ name ordinal, failure.2 ≠ .unknownStateOrdinal name ordinal := by
  have hempty : ∀ key, ({} : Store).get? key = none := fun _ => rfl
  have hident : ∀ d d', Applicant events d → Applicant events d' → d.id = d'.id → d = d' := by
    intro d d' hd hd' hid
    rcases applicant_cases hd with rfl | rfl | rfl <;>
      rcases applicant_cases hd' with rfl | rfl | rfl
    all_goals first | rfl | cases hid
  have hquiet : ∀ d, Applicant events d → d.RulesOnly Request.StagesNothing := fun _ => quiet
  have hstate : (host.engine.store.get? ⟨"7", "pipeline"⟩).map (fun row => row.record.state) =
      some 2 := by decide +kernel
  refine ⟨hempty, hident, hquiet, ?_⟩
  unfold host at *
  obtain ⟨hrows, hfailed, -⟩ := rows_decode {} () 0 {} events hempty hident hquiet
  obtain ⟨row, hrow, htwo⟩ := Option.map_eq_some_iff.1 hstate
  obtain ⟨d, hd, -, -, ⟨state, hdecodes, -⟩, hsingle⟩ := hrows ⟨"7", "pipeline"⟩ row hrow
  rw [htwo] at hdecodes
  exact ⟨⟨d, state, hd, hdecodes, hsingle⟩, hfailed⟩

end Clash

end Host

end Saga
