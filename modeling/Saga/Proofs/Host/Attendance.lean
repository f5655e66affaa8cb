import Saga.Proofs.Dispatch.Telling
import Saga.Proofs.Host.Answers

/-!
# Hosts that only telling definitions attend

Where all handlers have come by subscriptions of telling definitions, the registry keeps a blueprint
for each of them under the type of its messages, and only telling blueprints (`Host.Attended`). This
stays so whatever happens to the host (`Host.Attended.run`). No delivery ever compiles anything
then, so a handler does the same in any two deliveries with the same store, clock and registry
(`Host.Level.ending_eq`), and one that fails leaves these as they were (`Host.Level.of_failed`).
-/

namespace Saga

variable {σ M : Type} [Message M]

omit [Message M] in
/-- What a script asks for after a turn is among what it asked for before. -/
lemma Script.Only.moved {ε α : Type} {p : Request M → Prop} {rest rest' : Script σ M ε α}
    {s s' : Delivery σ M} (h : rest.Only p) (hmoved : Script.Moved s rest rest' s') :
    rest'.Only p := by
  cases hmoved with
  | ended => exact h
  | app => exact h _
  | refused _ _ => exact h.2 _
  | answered _ => exact h.2 _

namespace Pool

variable {registry : Registry σ M} {p p' : Pool σ M} {allowed : Definition σ M → Prop}

/-- Whether a pool keeps telling blueprints only, those of a registry among them, and no task of it
forwards anything. -/
structure Attended (registry : Registry σ M) (p : Pool σ M) : Prop where
  extends_registry : p.engine.registry.Extends registry
  tells : p.engine.registry.Every Script.Tells
  tasks : ∀ (i : Nat) (t : Task σ M), p.tasks[i]? = some t → t.rest.Only fun r => ¬ r.Forwards

/-- No task of an attended pool forwards anything. -/
lemma Attended.not_forwards (h : p.Attended registry) {i : Nat} {t : Task σ M}
    (hget : p.tasks[i]? = some t) : ¬ t.rest.Forwards := by
  intro hforwards
  obtain ⟨id, m, next, hrest⟩ := Script.eq_of_forwards hforwards
  have honly := h.tasks i t hget
  rw [hrest] at honly
  exact honly.1 trivial

/-- A task that forwards nothing leaves a pool attended. -/
lemma Attended.put (h : p.Attended registry) {i : Nat} {t : Task σ M}
    (ht : t.rest.Only fun r => ¬ r.Forwards) : (p.put i t).Attended registry := by
  refine ⟨h.extends_registry, h.tells, fun j u hu => ?_⟩
  rcases getElem?_set_cases hu with ⟨rfl, rfl⟩ | ⟨-, hu⟩
  · exact ht
  · exact h.tasks j u hu

/-- Changes keep this if only telling definitions may start. -/
lemma Attended.change (h : p.Attended registry) (hchange : Change allowed p p')
    (hallowed : ∀ d, allowed d → d.Tells) : p'.Attended registry := by
  cases hchange with
  | ticked => exact ⟨h.extends_registry, h.tells, h.tasks⟩
  | drained => exact ⟨h.extends_registry, h.tells, h.tasks⟩
  | @launched job registry' log b hasked horigin =>
    have hjob : job.definition.Tells := by
      rcases hasked with hstarted | ⟨-, i, t, hget, hforwards⟩
      · exact hallowed _ hstarted
      · exact absurd hforwards (h.not_forwards hget)
    obtain ⟨hb, hregistry⟩ := h.tells.of_origin hjob horigin
    refine ⟨horigin.extends.trans h.extends_registry, hregistry, fun j u hu => ?_⟩
    rcases getElem?_concat_cases hu with hu | ⟨-, rfl⟩
    · exact h.tasks j u hu
    · exact Definition.script_only ((hb _).sends.weaken fun _ hr => hr.staysInside.not_forwards)
  | @marked i t _ _ hget => exact h.put (h.tasks i t hget)
  | @told i t id m next answer awaited hget hrest =>
    have hforwards : t.rest.Forwards := by
      rw [hrest]
      trivial
    exact absurd hforwards (h.not_forwards hget)
  | @moved i t rest d hget hmoved =>
    have hsame : d.registry = p.engine.registry := hmoved.registry
    refine ⟨?_, ?_, fun j u hu => ?_⟩
    · show d.registry.Extends registry
      rw [hsame]
      exact h.extends_registry
    · show d.registry.Every Script.Tells
      rw [hsame]
      exact h.tells
    · rcases getElem?_set_cases hu with ⟨rfl, rfl⟩ | ⟨-, hu⟩
      · exact (h.tasks _ t hget).moved hmoved
      · exact h.tasks j u hu

end Pool

namespace Host

variable {h : Host σ M} {m : M}

/-- Whether all handlers are those of definitions for which a blueprint is kept, and all kept
blueprints tell. -/
structure Attended (h : Host σ M) : Prop where
  handlers : ∀ trigger, ∀ handler ∈ h.handlersOf trigger,
    ∃ (d : Definition σ M) (b : Blueprint σ M d.states), handler = .workflow d ∧
      h.engine.registry.Keeps d trigger b
  tells : h.engine.registry.Every Script.Tells

namespace Attended

/-- The handlers of a message have telling blueprints. -/
lemma workflow (hh : h.Attended) {handler : Handler σ M}
    (hmem : handler ∈ h.handlersOf (Message.type m)) :
    ∃ (d : Definition σ M) (b : Blueprint σ M d.states), handler = .workflow d ∧
      h.engine.registry.Keeps d (Message.type m) b ∧ b.Every Script.Tells m := by
  obtain ⟨d, b, rfl, hkeeps⟩ := hh.handlers _ handler hmem
  exact ⟨d, b, rfl, hkeeps, hkeeps.every hh.tells m⟩

end Attended

/-- A handler whose blueprint is kept runs the script that is made with it. -/
lemma runHandler_of_keeps (router : Router σ M) {d : Definition σ M} {b : Blueprint σ M d.states}
    {s : Delivery σ M} (hkeeps : s.registry.Keeps d (Message.type m) b) :
    let run := (d.script router.options b m).run router.scope s
    Run.result (runHandler router m (.workflow d) s) = (Run.result run).map Outcome.summary ∧
      Run.final (runHandler router m (.workflow d) s) = Run.final run := by
  obtain ⟨hresult, hfinal⟩ := handle_run router m d s
  have hdispatch : d.dispatch router.options router.scope m s =
      (d.script router.options b m).run router.scope s := by
    rw [Definition.dispatch_apply, hkeeps.blueprint]
  rw [hresult, hfinal, hdispatch]
  exact ⟨rfl, rfl⟩

section Events

variable {d : Definition σ M} {event : Event σ M}

/-- Nobody is unsubscribed. -/
lemma Subscribed.step (hd : h.Subscribed d) : (h.step event).Subscribed d := by
  cases event with
  | subscribe d' trigger =>
    show (Run.final (subscribe d' trigger h)).Subscribed d
    rcases subscribe_cases h d' trigger with ⟨e, hrefused⟩ | ⟨h', hok, haccepted⟩
    · rw [hrefused]
      exact hd
    · rw [hok]
      obtain ⟨other, hmem⟩ := hd
      refine ⟨other, ?_⟩
      rw [Run.final_ok, haccepted.handlers other]
      split
      · exact List.mem_append_left _ hmem
      · exact hmem
  | _ => exact hd

/-- Who is subscribed to a host that began without handlers has asked to. -/
lemma Subscribed.applicant {events : List (Event σ M)} (hempty : h.handlers = Keyed.empty)
    (hd : (h.run events).Subscribed d) : Applicant events d := by
  have hnone : ∀ d, h.Subscribed d → Applicant events d := by
    rintro d ⟨trigger, hmem⟩
    simp [handlersOf, hempty] at hmem
  refine run_keeps (I := fun h => ∀ d, h.Subscribed d → Applicant events d) ?_ hnone d hd
  intro h event hmem hh d hd
  cases event with
  | subscribe d' trigger =>
    change (Run.final (subscribe d' trigger h)).Subscribed d at hd
    rcases subscribe_cases h d' trigger with ⟨e, hrefused⟩ | ⟨h', hok, haccepted⟩
    · rw [hrefused] at hd
      exact hh d hd
    · rw [hok] at hd
      obtain ⟨other, hhandler⟩ := hd
      rw [Run.final_ok, haccepted.handlers] at hhandler
      split at hhandler
      · rcases List.mem_append.1 hhandler with hold | hnew
        · exact hh d ⟨other, hold⟩
        · cases List.mem_singleton.1 hnew
          exact ⟨trigger, hmem⟩
      · exact hh d ⟨other, hhandler⟩
  | _ => exact hh d hd

namespace Attended

/-- A subscription leaves a host attended, if all who subscribed tell. -/
lemma subscribe (hh : h.Attended) (trigger : MessageType)
    (htells : ∀ d', (h.step (.subscribe d trigger)).Subscribed d' → d'.Tells) :
    (h.step (.subscribe d trigger)).Attended := by
  simp only [step] at htells ⊢
  rcases subscribe_cases h d trigger with ⟨e, hrefused⟩ | ⟨h', hok, haccepted⟩
  · rw [hrefused]
    exact hh
  · rw [hok, Run.final_ok] at htells ⊢
    obtain ⟨b, registry, log, horigin, hengine⟩ := haccepted.engine
    have hadded : h'.Subscribed d := by
      refine ⟨trigger, ?_⟩
      rw [haccepted.handlers, if_pos rfl]
      exact List.mem_append_right _ (List.mem_singleton.2 rfl)
    have hregistry : h'.engine.registry = registry := by rw [hengine]
    refine ⟨fun other handler hmem => ?_, ?_⟩
    · rw [hregistry]
      rw [haccepted.handlers] at hmem
      have hold : handler ∈ h.handlersOf other → ∃ (d : Definition σ M)
          (b : Blueprint σ M d.states), handler = .workflow d ∧ registry.Keeps d other b := by
        intro hmem
        obtain ⟨d', b', hhandler, hkeeps⟩ := hh.handlers other handler hmem
        exact ⟨d', b', hhandler, hkeeps.mono horigin.extends⟩
      split at hmem
      · next heq =>
        subst heq
        rcases List.mem_append.1 hmem with hmem | hnew
        · exact hold hmem
        · exact ⟨d, b, List.mem_singleton.1 hnew, horigin.keeps⟩
      · exact hold hmem
    · rw [hregistry]
      exact (hh.tells.of_origin (htells d hadded) horigin).2

/-- A delivery compiles nothing. -/
lemma deliver_registry (hh : h.Attended) (m : M) (cancelled : Bool) :
    (h.deliver m cancelled).2.engine.registry = h.engine.registry := by
  refine (deliver_keeps (I := fun engine => engine.registry = h.engine.registry) (fun _ => True)
    (fun _ _ => id) ?_ rfl cancelled).1
  intro handler hmem s _ hs
  obtain ⟨d, b, rfl, hkeeps, hb⟩ := hh.workflow hmem
  have hown := h.router.services_ofSession
  rw [← hs] at hkeeps
  rw [(runHandler_of_keeps h.router hkeeps).2]
  have hkept := Definition.script_keeping h.router.options hown hb.sends s
  exact ⟨hkept.registry.trans hs, fun _ _ => trivial⟩

/-- Overlapping deliveries of an attended host are an attended pool. -/
lemma overlap (hh : h.Attended) (htells : ∀ d, h.Subscribed d → d.Tells) (moves : List (Move M)) :
    (h.overlap moves).Attended h.engine.registry := by
  apply Pool.run_keeps h.Subscribed
  · exact fun p p' hchange hp => hp.change hchange htells
  · exact fun job hmem => subscribed_of_event hmem
  · exact ⟨.refl _, hh.tells, nofun⟩

/-- Every event leaves a host attended, if all who subscribed tell. -/
lemma step (hh : h.Attended) (htells : ∀ d, (h.step event).Subscribed d → d.Tells) :
    (h.step event).Attended := by
  cases event with
  | subscribe d trigger => exact hh.subscribe trigger htells
  | deliver m cancelled =>
    have hsame : (h.step (.deliver m cancelled)).engine.registry = h.engine.registry :=
      hh.deliver_registry m cancelled
    refine ⟨fun trigger handler hmem => ?_, ?_⟩
    · rw [hsame]
      exact hh.handlers trigger handler hmem
    · rw [hsame]
      exact hh.tells
  | overlap moves =>
    have hpool := hh.overlap htells moves
    refine ⟨fun trigger handler hmem => ?_, hpool.tells⟩
    obtain ⟨d, b, hhandler, hkeeps⟩ := hh.handlers trigger handler hmem
    exact ⟨d, b, hhandler, hkeeps.mono hpool.extends_registry⟩
  | tick now => exact ⟨hh.handlers, hh.tells⟩
  | drain => exact ⟨hh.handlers, hh.tells⟩

/-- Whatever happens to a host, it is attended as long as only telling definitions subscribe. -/
lemma run {events : List (Event σ M)} (hh : h.Attended)
    (htells : ∀ d, (h.run events).Subscribed d → d.Tells) : (h.run events).Attended := by
  refine run_keeps (I := fun h => (∀ d, h.Subscribed d → d.Tells) → h.Attended) ?_ (fun _ => hh)
    htells
  intro h event _ hh htells
  exact (hh fun d hd => htells d hd.step).step htells

end Attended

end Events

/-- Whether deliveries are live, with the same store and clock, and both with this registry. -/
structure Level (kept : Registry σ M) (s s' : Delivery σ M) : Prop where
  store : s'.store = s.store
  now : s'.now = s.now
  live : s.cancelled = false
  live' : s'.cancelled = false
  registry : s.registry = kept
  registry' : s'.registry = kept

namespace Level

variable {s s' : Delivery σ M}

omit [Message M] in
/-- Deliveries that are level and in one session differ at most in the application and the log. -/
lemma akin {kept : Registry σ M} (h : Level kept s s') (hsession : s'.session = s.session) :
    s.Akin s' := by
  obtain ⟨store, now, live, live', registry, registry'⟩ := h
  obtain ⟨⟨_, _, _, _, _⟩, _, _⟩ := s
  obtain ⟨⟨_, _, app, _, log⟩, _, _⟩ := s'
  simp only at store now live live' registry registry' hsession
  subst store now live live' registry registry' hsession
  exact ⟨app, log, rfl⟩

variable (hh : h.Attended) {handler : Handler σ M}
  (hmem : handler ∈ h.handlersOf (Message.type m)) (hlevel : Level h.engine.registry s s')

include hh hmem hlevel

/-- A handler ends alike in level deliveries, and leaves them level. -/
lemma ending_eq (hsession : s.session = {}) (hsession' : s'.session = {}) :
    ending h.router m (handler, s) = ending h.router m (handler, s') ∧
      Level h.engine.registry (Run.final (runHandler h.router m handler s))
        (Run.final (runHandler h.router m handler s')) := by
  obtain ⟨d, b, rfl, hkeeps, hb⟩ := hh.workflow hmem
  have hown := h.router.services_ofSession
  have hkeeps₁ : s.registry.Keeps d (Message.type m) b := by
    rw [hlevel.registry]
    exact hkeeps
  have hkeeps₂ : s'.registry.Keeps d (Message.type m) b := by
    rw [hlevel.registry']
    exact hkeeps
  obtain ⟨hresult₁, hfinal₁⟩ := runHandler_of_keeps h.router hkeeps₁
  obtain ⟨hresult₂, hfinal₂⟩ := runHandler_of_keeps h.router hkeeps₂
  obtain ⟨hsame, app, log, hakin⟩ := Definition.script_akin h.router.options hown hb
    (hlevel.akin (hsession'.trans hsession.symm))
  have hkept := Definition.script_keeping h.router.options hown hb.sends s
  unfold ending
  simp only [hresult₁, hresult₂, hfinal₁, hfinal₂, hsame, hakin, hlevel.store]
  refine ⟨trivial, ⟨rfl, rfl, ?_, ?_, ?_, ?_⟩⟩
  · exact hkept.cancelled.trans hlevel.live
  · exact hkept.cancelled.trans hlevel.live
  · exact hkept.registry.trans hlevel.registry
  · exact hkept.registry.trans hlevel.registry

/-- A handler that fails leaves level deliveries level. -/
lemma of_failed {e : EngineError} (hfailed : (ending h.router m (handler, s)).answer = .error e) :
    Level h.engine.registry (Run.final (runHandler h.router m handler s)) s' := by
  obtain ⟨d, b, rfl, hkeeps, hb⟩ := hh.workflow hmem
  have hown := h.router.services_ofSession
  rw [← hlevel.registry] at hkeeps
  obtain ⟨hresult, hfinal⟩ := runHandler_of_keeps h.router hkeeps
  have hkept := Definition.script_keeping h.router.options hown hb.sends s
  have hstore : (Run.final ((d.script h.router.options b m).run h.router.scope s)).store =
      s.store := by
    have herror : (Run.result ((d.script h.router.options b m).run h.router.scope s)).map
        Outcome.summary = .error e := hresult.symm.trans hfailed
    cases hrun : (d.script h.router.options b m).run h.router.scope s with
    | ok outcome s₁ =>
      rw [hrun] at herror
      cases herror
    | error e' s₁ =>
      exact Definition.script_error hown
        (hb.sends.weaken fun _ => Request.OnlySends.staysInside) hrun
  rw [hfinal]
  exact ⟨hlevel.store.trans hstore.symm, hlevel.now.trans hkept.now.symm,
    hkept.cancelled.trans hlevel.live, hlevel.live', hkept.registry.trans hlevel.registry,
    hlevel.registry'⟩

end Level

end Host

end Saga
