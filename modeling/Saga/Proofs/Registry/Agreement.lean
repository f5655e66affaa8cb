import Saga.Pipeline
import Saga.Proofs.Registry.Desk

/-!
# Agreement on blueprints

Whoever asks a registry for the blueprint under a key, and whoever else asks at the same time, all
are given the same one: the first that was handed in for the key. `Desk.Sound` says what the log of
a desk tells of its registry and of each call, and every event keeps it (`Desk.Sound.step`). What
calls can count on is read off it (`Desk.Agreed`).
-/

namespace Saga

variable {σ M : Type}

namespace Inquiry

/-- Whether a kept blueprint is what the factory of a call has built. -/
def Made (q : Inquiry σ M) (cached : CachedBlueprint σ M) : Prop :=
  ∃ b, q.factory = .ok b ∧ cached = ⟨cached.serial, q.states, b⟩

/-- How far a call has come goes with what it has done and with what the registry keeps. -/
inductive Trace (q : Inquiry σ M) (r : Registry σ M) : q.Stage → List Deed → Prop where
  | called : Trace q r .called []
  | missed : Trace q r .missed [.missed]
  | built {b} : q.factory = .ok b → Trace q r (.built b) [.missed, .built]
  | failed {cause} : q.factory = .error cause → Trace q r (.failed cause) [.missed, .failed]
  | found {cached} : r.lookup q.key = some cached → Trace q r (.got cached) [.found]
  | offered {b cached deed} : q.factory = .ok b → deed.offers = true →
    r.lookup q.key = some cached → Trace q r (.got cached) [.missed, .built, deed]
  | refused {cause} : q.factory = .error cause →
    Trace q r (.returned (.error (.build cause))) [.missed, .failed, .returned]
  | answered {cached deeds} : Trace q r (.got cached) deeds →
    Trace q r (.returned (Registry.share q.key q.states cached)) (deeds ++ [.returned])

namespace Trace

variable {q : Inquiry σ M} {r r' : Registry σ M} {stage stage' : q.Stage} {deeds : List Deed}
  {deed : Deed}

/-- What a call has done fits a registry that keeps more. -/
lemma mono (h : q.Trace r stage deeds) (hr : r'.Extends r) : q.Trace r' stage deeds := by
  induction h with
  | called => exact .called
  | missed => exact .missed
  | built hfactory => exact .built hfactory
  | failed hfactory => exact .failed hfactory
  | found hlookup => exact .found (hr _ _ hlookup)
  | offered hfactory hoffers hlookup => exact .offered hfactory hoffers (hr _ _ hlookup)
  | refused hfactory => exact .refused hfactory
  | answered _ ih => exact .answered ih

/-- A turn of a call fits what it has done before. -/
lemma move (h : q.Trace r stage deeds) (hmoves : q.Moves r stage deed stage' r') :
    q.Trace r' stage' (deeds ++ [deed]) := by
  cases hmoves with
  | found hlookup =>
    cases h
    exact .found hlookup
  | missed hlookup =>
    cases h
    exact .missed
  | built hfactory =>
    cases h
    exact .built hfactory
  | failed hfactory =>
    cases h
    exact .failed hfactory
  | inserted hlookup =>
    cases h with
    | built hfactory =>
      refine .offered hfactory rfl ?_
      rw [Registry.lookup, Keyed.get?_insert, if_pos rfl]
  | overtaken hlookup =>
    cases h with
    | built hfactory => exact .offered hfactory rfl hlookup
  | refused =>
    cases h with
    | failed hfactory => exact .refused hfactory
  | answered => exact .answered h

/-- A call with an entry has it from the registry. -/
lemma lookup_of_got {cached : CachedBlueprint σ M} (h : q.Trace r (.got cached) deeds) :
    r.lookup q.key = some cached := by
  cases h with
  | found hlookup => exact hlookup
  | offered _ _ hlookup => exact hlookup

/-- A call with a blueprint to hand in has it from its factory. -/
lemma factory_of_built {b : Blueprint σ M q.states} (h : q.Trace r (.built b) deeds) :
    q.factory = .ok b := by
  cases h with
  | built hfactory => exact hfactory

/-- A call that has found an entry has not run its factory. -/
lemma lazy (h : q.Trace r stage deeds) (hfound : .found ∈ deeds) :
    .built ∉ deeds ∧ .failed ∉ deeds := by
  induction h with
  | found => simp
  | @offered b cached deed _ hoffers _ => cases deed <;> simp_all [Deed.offers]
  | answered _ ih => simpa using ih (by simpa using hfound)
  | _ => simp at hfound

/-- A call has returned the error of its factory, or what the registry keeps. -/
lemma returned_cases {answer : Except EngineError (Shared σ M q.states)}
    (h : q.Trace r (.returned answer) deeds) :
    (∃ cause, .found ∉ deeds ∧ .built ∉ deeds ∧ q.factory = .error cause ∧
        answer = .error (.build cause)) ∨
      ∃ cached, .failed ∉ deeds ∧ r.lookup q.key = some cached ∧
        answer = Registry.share q.key q.states cached := by
  cases h with
  | refused hfactory => exact .inl ⟨_, by simp, by simp, hfactory, rfl⟩
  | answered hgot =>
    refine .inr ⟨_, ?_, hgot.lookup_of_got, rfl⟩
    cases hgot with
    | found => simp
    | @offered b cached deed _ hoffers _ => cases deed <;> simp_all [Deed.offers]

end Trace

end Inquiry

namespace Log

/-- What a call has done. -/
def deeds (past : Log σ M) (i : Nat) : List Deed :=
  past.filterMap fun note => if note.caller = i then some note.deed else none

/-- The first time that a blueprint was handed in for a key. -/
def first? (past : Log σ M) (key : BlueprintKey) : Option (Note σ M) :=
  past.find? fun note => note.deed.offers && decide (note.inquiry.key = key)

/-- The keys for which a blueprint was handed in and kept. -/
def inserted (past : Log σ M) : List BlueprintKey :=
  past.filterMap fun note => if note.deed = .inserted then some note.inquiry.key else none

/-- How often a factory was run with success for a key. -/
def builds (past : Log σ M) (key : BlueprintKey) : Nat :=
  past.countP fun note => decide (note.deed = .built) && decide (note.inquiry.key = key)

variable {past : Log σ M} {note : Note σ M} {key : BlueprintKey} {i : Nat}

/-- What a call does is noted behind what it did before. -/
lemma deeds_concat_self (past : Log σ M) (i : Nat) (q : Inquiry σ M) (deed : Deed) :
    deeds (past ++ [⟨i, q, deed⟩]) i = past.deeds i ++ [deed] := by
  simp [deeds]

/-- What another call does is not among the deeds of this one. -/
lemma deeds_concat_of_ne (h : note.caller ≠ i) : deeds (past ++ [note]) i = past.deeds i := by
  simp [deeds, h]

/-- A note that hands in nothing for a key leaves the first for it. -/
lemma first?_concat_of_silent (h : note.deed.offers = false ∨ note.inquiry.key ≠ key) :
    first? (past ++ [note]) key = past.first? key := by
  have hsilent : (note.deed.offers && decide (note.inquiry.key = key)) = false := by
    rcases h with h | h <;> simp [h]
  simp [first?, List.find?_append, hsilent]

/-- The first blueprint for a key stays the first. -/
lemma first?_concat_of_some {first : Note σ M} (h : past.first? key = some first) :
    first? (past ++ [note]) key = some first := by
  rw [first?] at h
  simp [first?, List.find?_append, h]

/-- A blueprint that is handed in for a key without one is the first for it. -/
lemma first?_concat_of_none (h : past.first? note.inquiry.key = none)
    (hoffers : note.deed.offers = true) :
    first? (past ++ [note]) note.inquiry.key = some note := by
  rw [first?] at h
  simp [first?, List.find?_append, h, hoffers]

/-- One more note is of an insertion or of none. -/
lemma inserted_concat (past : Log σ M) (note : Note σ M) :
    inserted (past ++ [note]) =
      past.inserted ++ if note.deed = .inserted then [note.inquiry.key] else [] := by
  by_cases h : note.deed = .inserted <;> simp [inserted, h]

/-- The builds for a key in two parts of a log add up. -/
lemma builds_append (past more : Log σ M) (key : BlueprintKey) :
    builds (past ++ more) key = past.builds key + more.builds key :=
  List.countP_append

/-- What the log tells of a registry that was empty at first: an entry is the first that was handed
in for its key, and nothing else was kept. -/
structure Tells (past : Log σ M) (r : Registry σ M) : Prop where
  first : ∀ key cached, r.lookup key = some cached →
    ∃ note, past.first? key = some note ∧ note.deed = .inserted ∧ note.inquiry.Made cached
  vacant : ∀ key, r.lookup key = none → past.first? key = none
  keys : r.entries.keys = past.inserted

namespace Tells

variable {r r' : Registry σ M} {q : Inquiry σ M} {stage stage' : q.Stage} {deed : Deed}

/-- Where nothing is kept and no first is handed in, neither side changes. -/
lemma concat (h : past.Tells r) (hfirst : ∀ key, first? (past ++ [note]) key = past.first? key)
    (hdeed : note.deed ≠ .inserted) : Tells (past ++ [note]) r where
  first key cached hlookup := by
    rw [hfirst]
    exact h.first key cached hlookup
  vacant key hlookup := by
    rw [hfirst]
    exact h.vacant key hlookup
  keys := by
    rw [inserted_concat, if_neg hdeed, List.append_nil]
    exact h.keys

/-- A deed that hands in nothing leaves the log telling of the registry. -/
lemma silent (h : past.Tells r) (hoffers : note.deed.offers = false) :
    Tells (past ++ [note]) r := by
  refine h.concat (fun key => first?_concat_of_silent (.inl hoffers)) ?_
  intro hdeed
  rw [hdeed] at hoffers
  cases hoffers

/-- What comes too late is not the first. -/
lemma overtaken (h : past.Tells r) {cached : CachedBlueprint σ M}
    (hlookup : r.lookup q.key = some cached) : Tells (past ++ [⟨i, q, .overtaken⟩]) r := by
  obtain ⟨note, hnote, -⟩ := h.first _ _ hlookup
  refine h.concat (fun key => ?_) nofun
  by_cases hkey : q.key = key
  · rw [← hkey, hnote]
    exact first?_concat_of_some hnote
  · exact first?_concat_of_silent (.inr hkey)

/-- What is kept is the first that was handed in. -/
lemma insert (h : past.Tells r) (hvacant : r.lookup q.key = none)
    {b : Blueprint σ M q.states} (hfactory : q.factory = .ok b) :
    Tells (past ++ [⟨i, q, .inserted⟩])
      { r with entries := r.entries.insert q.key ⟨r.size, q.states, b⟩ } := by
  have hfirst : first? (past ++ [⟨i, q, .inserted⟩]) q.key = some ⟨i, q, .inserted⟩ :=
    first?_concat_of_none (h.vacant _ hvacant) rfl
  have hothers : ∀ key, q.key ≠ key →
      first? (past ++ [⟨i, q, .inserted⟩]) key = past.first? key :=
    fun key hne => first?_concat_of_silent (.inr hne)
  refine ⟨fun key cached hlookup => ?_, fun key hlookup => ?_, ?_⟩
  · rw [Registry.lookup, Keyed.get?_insert] at hlookup
    split at hlookup
    · next heq =>
      cases hlookup
      exact ⟨_, heq ▸ hfirst, rfl, b, hfactory, rfl⟩
    · next hne =>
      rw [hothers key hne]
      exact h.first key cached hlookup
  · rw [Registry.lookup, Keyed.get?_insert] at hlookup
    split at hlookup
    · cases hlookup
    · next hne =>
      rw [hothers key hne]
      exact h.vacant key hlookup
  · have hnew : q.key ∉ r.entries.keys := by
      rw [← Keyed.contains_iff_mem_keys, Keyed.contains, ← Registry.lookup, hvacant]
      exact Bool.false_ne_true
    rw [Keyed.keys_insert, if_neg hnew, inserted_concat, h.keys]
    rfl

/-- Every turn is logged as what it does to the registry. -/
lemma move (h : past.Tells r) {deeds : List Deed} (htrace : q.Trace r stage deeds)
    (hmoves : q.Moves r stage deed stage' r') : Tells (past ++ [⟨i, q, deed⟩]) r' := by
  cases hmoves with
  | inserted hvacant => exact h.insert hvacant htrace.factory_of_built
  | overtaken hlookup => exact h.overtaken hlookup
  | _ => exact h.silent rfl

end Tells

end Log

namespace Desk

/-- What the log of a desk tells of its registry, of each call, and of the calls to come. -/
structure Sound (d : Desk σ M) : Prop where
  tells : d.past.Tells d.registry
  trace : ∀ {i} {q : Inquiry σ M} {stage}, d.callers[i]? = some ⟨q, stage⟩ →
    q.Trace d.registry stage (d.past.deeds i)
  fresh : ∀ i, d.callers.length ≤ i → d.past.deeds i = []

namespace Sound

variable {d : Desk σ M}

/-- The log of a new desk tells all. -/
lemma empty : Sound ({} : Desk σ M) where
  tells := ⟨nofun, fun _ _ => rfl, rfl⟩
  trace h := by cases h
  fresh _ _ := rfl

/-- A new call has done nothing yet. -/
lemma call (h : Sound d) (q : Inquiry σ M) :
    Sound { d with callers := d.callers ++ [⟨q, .called⟩] } where
  tells := h.tells
  trace {i q' stage} hcaller := by
    by_cases hi : i < d.callers.length
    · rw [List.getElem?_append_left hi] at hcaller
      exact h.trace hcaller
    · have hlength : i = d.callers.length := by
        have hlt := (List.getElem?_eq_some_iff.1 hcaller).1
        rw [List.length_append, List.length_singleton] at hlt
        omega
      subst hlength
      rw [List.getElem?_concat_length] at hcaller
      cases hcaller
      show q.Trace d.registry .called (d.past.deeds d.callers.length)
      rw [h.fresh _ (Nat.le_refl _)]
      exact .called
  fresh i hi := h.fresh i (by rw [List.length_append] at hi; omega)

/-- After a turn of a call the log still tells all. -/
lemma move (h : Sound d) {i : Nat} {q : Inquiry σ M} {stage stage' : q.Stage} {deed : Deed}
    {registry : Registry σ M} (hcaller : d.callers[i]? = some ⟨q, stage⟩)
    (hmoves : q.Moves d.registry stage deed stage' registry) :
    Sound ⟨registry, d.callers.set i ⟨q, stage'⟩, d.past ++ [⟨i, q, deed⟩]⟩ := by
  have hlt : i < d.callers.length := (List.getElem?_eq_some_iff.1 hcaller).1
  refine ⟨h.tells.move (h.trace hcaller) hmoves, ?trace, ?fresh⟩
  case trace =>
    intro j q' stage₁ hcaller'
    by_cases hij : i = j
    · subst hij
      rw [List.getElem?_set_self hlt] at hcaller'
      cases hcaller'
      show q.Trace registry stage' (Log.deeds (d.past ++ [⟨i, q, deed⟩]) i)
      rw [Log.deeds_concat_self]
      exact (h.trace hcaller).move hmoves
    · rw [List.getElem?_set_ne hij] at hcaller'
      show q'.Trace registry stage₁ (Log.deeds (d.past ++ [⟨i, q, deed⟩]) j)
      rw [Log.deeds_concat_of_ne hij]
      exact (h.trace hcaller').mono hmoves.extends_registry
  case fresh =>
    intro j hj
    rw [List.length_set] at hj
    show Log.deeds (d.past ++ [⟨i, q, deed⟩]) j = []
    rw [Log.deeds_concat_of_ne (show i ≠ j by omega)]
    exact h.fresh j hj

/-- Every event keeps the log in step with the registry and the calls. -/
lemma step (h : Sound d) (event : Event σ M) : Sound (d.step event) := by
  have hsteps := d.steps event
  generalize d.step event = after at hsteps ⊢
  cases hsteps with
  | call q => exact h.call q
  | move hcaller hmoves => exact h.move hcaller hmoves
  | idle _ => exact h

/-- The log of a desk tells all at every point. -/
lemma run (h : Sound d) (events : List (Event σ M)) : Sound (d.run events) :=
  run_induction h fun _ event _ h => h.step event

end Sound

/-- What calls can count on. -/
structure Agreed (d : Desk σ M) : Prop where
  /-- An entry is neither replaced nor taken out, whatever happens. -/
  stays : ∀ events, (d.run events).registry.Extends d.registry
  /-- A call that has found an entry, or has handed one in, has the one that is kept. -/
  held : ∀ {i : Nat} {q : Inquiry σ M} {cached}, d.callers[i]? = some ⟨q, .got cached⟩ →
    d.registry.lookup q.key = some cached
  /-- All calls for a key that are given a blueprint are given the same one. -/
  same : ∀ {i j : Nat} {q q' : Inquiry σ M} {shared : Shared σ M q.states}
    {shared' : Shared σ M q'.states},
    d.callers[i]? = some ⟨q, .returned (.ok shared)⟩ →
    d.callers[j]? = some ⟨q', .returned (.ok shared')⟩ → q.key = q'.key →
    shared.cached = shared'.cached
  /-- It is the one that is kept, and the first that was handed in for the key. -/
  first : ∀ {i : Nat} {q : Inquiry σ M} {shared : Shared σ M q.states},
    d.callers[i]? = some ⟨q, .returned (.ok shared)⟩ →
    d.registry.lookup q.key = some shared.cached ∧
      ∃ note, d.past.first? q.key = some note ∧ note.deed = .inserted ∧
        note.inquiry.Made shared.cached
  /-- A call whose factory fails changes nothing … -/
  failing : ∀ {i : Nat} {q : Inquiry σ M} {stage cause}, d.callers[i]? = some ⟨q, stage⟩ →
    q.factory = .error cause → (d.step (.turn i)).registry = d.registry
  /-- … and returns the error. -/
  refused : ∀ {i : Nat} {q : Inquiry σ M} {answer}, d.callers[i]? = some ⟨q, .returned answer⟩ →
    .failed ∈ d.past.deeds i → ∃ cause, q.factory = .error cause ∧ answer = .error (.build cause)
  /-- Any other call is refused what is kept just if that is over other states. -/
  mismatch : ∀ {i : Nat} {q : Inquiry σ M} {answer}, d.callers[i]? = some ⟨q, .returned answer⟩ →
    .found ∈ d.past.deeds i ∨ .built ∈ d.past.deeds i →
    ∃ cached, d.registry.lookup q.key = some cached ∧
      (answer = .error (.blueprintTypeMismatch q.key.definition.name) ↔
        cached.states ≠ q.states) ∧
      (cached.states = q.states → ∃ shared, answer = .ok shared ∧ shared.cached = cached)
  /-- A call that finds an entry does not run its factory. -/
  lazy : ∀ i, .found ∈ d.past.deeds i → .built ∉ d.past.deeds i ∧ .failed ∉ d.past.deeds i
  /-- There are as many entries as keys for which one was kept. -/
  counted : d.registry.size = d.past.inserted.length ∧ d.past.inserted.Nodup
  /-- A call that goes on taking its turns returns. -/
  returns : ∀ {i : Nat} {q : Inquiry σ M} {stage}, d.callers[i]? = some ⟨q, stage⟩ → ∀ events,
    4 ≤ events.countP (Event.isTurn i) →
    ∃ answer, (d.run events).callers[i]? = some ⟨q, .returned answer⟩

namespace Sound

variable {d : Desk σ M} {i : Nat} {q : Inquiry σ M}

/-- What is given to a call is kept for its key. -/
lemma lookup_of_returned (h : Sound d) {shared : Shared σ M q.states}
    (hcaller : d.callers[i]? = some ⟨q, .returned (.ok shared)⟩) :
    d.registry.lookup q.key = some shared.cached := by
  obtain ⟨cause, -, -, -, hanswer⟩ | ⟨cached, -, hlookup, hanswer⟩ :=
    (h.trace hcaller).returned_cases
  · cases hanswer
  · unfold Registry.share at hanswer
    split at hanswer
    · cases hanswer
      exact hlookup
    · cases hanswer

/-- A call without a blueprint to hand in leaves the registry as it is. -/
lemma registry_of_failing (h : Sound d) {stage : q.Stage} {cause : BuildError}
    (hcaller : d.callers[i]? = some ⟨q, stage⟩) (hfactory : q.factory = .error cause) :
    (d.step (.turn i)).registry = d.registry := by
  have hsteps := d.steps (.turn i)
  generalize d.step (.turn i) = after at hsteps ⊢
  cases hsteps with
  | move hmoving hmoves =>
    cases hcaller.symm.trans hmoving
    cases hmoves with
    | inserted _ => cases hfactory.symm.trans (h.trace hcaller).factory_of_built
    | _ => rfl
  | idle _ => rfl

/-- A call that has found a blueprint has not run its factory. -/
lemma lazy (h : Sound d) (i : Nat) (hfound : .found ∈ d.past.deeds i) :
    .built ∉ d.past.deeds i ∧ .failed ∉ d.past.deeds i := by
  by_cases hi : i < d.callers.length
  · exact (h.trace (List.getElem?_eq_getElem hi)).lazy hfound
  · rw [h.fresh i (Nat.le_of_not_lt hi)] at hfound
    cases hfound

/-- Where the log tells all, the calls agree. -/
lemma agreed (h : Sound d) : Agreed d where
  stays := d.extends_run
  held hcaller := (h.trace hcaller).lookup_of_got
  same {i j q q' shared shared'} hcaller hcaller' hkey := by
    have hlookup := h.lookup_of_returned hcaller
    rw [hkey, h.lookup_of_returned hcaller'] at hlookup
    exact (Option.some.inj hlookup).symm
  first hcaller :=
    ⟨h.lookup_of_returned hcaller, h.tells.first _ _ (h.lookup_of_returned hcaller)⟩
  failing hcaller hfactory := h.registry_of_failing hcaller hfactory
  refused hcaller hfailed := by
    obtain ⟨cause, -, -, hfactory, hanswer⟩ | ⟨cached, hnot, -⟩ :=
      (h.trace hcaller).returned_cases
    · exact ⟨cause, hfactory, hanswer⟩
    · exact absurd hfailed hnot
  mismatch {i q answer} hcaller hdone := by
    obtain ⟨cause, hfound, hbuilt, -⟩ | ⟨cached, -, hlookup, rfl⟩ :=
      (h.trace hcaller).returned_cases
    · exact absurd hdone (not_or.2 ⟨hfound, hbuilt⟩)
    · refine ⟨cached, hlookup, ?_, fun hstates => ?_⟩
      · unfold Registry.share
        by_cases hstates : cached.states = q.states <;> simp [hstates]
      · exact ⟨⟨cached, hstates⟩, dif_pos hstates, rfl⟩
  lazy := h.lazy
  counted := by
    have hlength : d.registry.entries.keys.length = d.registry.size := List.length_map _
    rw [← hlength, h.tells.keys]
    exact ⟨rfl, h.tells.keys ▸ d.registry.entries.nodup⟩
  returns hcaller events hturns := returned_of_turns hcaller hturns

end Sound

section InTurn

/-- No key had two factories run with success, and one that had has an entry. -/
structure Thrifty (d : Desk σ M) : Prop where
  builds : ∀ key, d.past.builds key ≤ 1
  vacant : ∀ key, d.registry.lookup key = none → d.past.builds key = 0

variable {d after : Desk σ M} {q : Inquiry σ M}

/-- Notes of no build leave a desk thrifty. -/
lemma Thrifty.append (h : Thrifty d) (callers : List (Caller σ M)) {more : Log σ M}
    (hmore : ∀ key, more.builds key = 0) : Thrifty ⟨d.registry, callers, d.past ++ more⟩ := by
  have hbuilds : ∀ key, Log.builds (d.past ++ more) key = d.past.builds key := by
    intro key
    rw [Log.builds_append, hmore, Nat.add_zero]
  exact ⟨fun key => hbuilds key ▸ h.builds key, fun key hkey => hbuilds key ▸ h.vacant key hkey⟩

/-- A call that takes its turns alone runs its factory only for a key without an entry. -/
lemma Thrifty.alone (h : Thrifty d) (halone : d.Alone q after) : Thrifty after := by
  cases halone with
  | found _ => exact h.append _ fun _ => rfl
  | failed _ _ => exact h.append _ fun _ => rfl
  | @built b hvacant _ =>
    have hbuilds : ∀ key, Log.builds (d.past ++ [⟨d.callers.length, q, .missed⟩,
        ⟨d.callers.length, q, .built⟩, ⟨d.callers.length, q, .inserted⟩,
        ⟨d.callers.length, q, .returned⟩]) key =
        d.past.builds key + if q.key = key then 1 else 0 := by
      intro key
      by_cases hkey : q.key = key <;> simp [Log.builds, hkey]
    refine ⟨fun key => ?_, fun key hlookup => ?_⟩
    · show Log.builds _ key ≤ 1
      rw [hbuilds]
      split
      · next hkey =>
        have hnone := h.vacant key (hkey ▸ hvacant)
        omega
      · exact h.builds key
    · show Log.builds _ key = 0
      simp only [Registry.insertIfAbsent, hvacant] at hlookup
      rw [Registry.lookup, Keyed.get?_insert] at hlookup
      split at hlookup
      · cases hlookup
      · next hne =>
        rw [hbuilds, if_neg hne]
        exact h.vacant key hlookup

/-- A call that takes its turns alone is one more at the desk. -/
lemma Alone.length_callers (h : d.Alone q after) :
    after.callers.length = d.callers.length + 1 := by
  cases h <;> exact List.length_append

/-- Calls one after the other leave a desk thrifty. -/
lemma Thrifty.run_inTurn (h : Thrifty d) (qs : List (Inquiry σ M)) :
    Thrifty (d.run (inTurn d.callers.length qs)) := by
  induction qs generalizing d with
  | nil => exact h
  | cons q rest ih =>
    have halone := d.run_alone q
    show Thrifty (d.run (Desk.alone d.callers.length q ++ inTurn (d.callers.length + 1) rest))
    rw [run_append, ← halone.length_callers]
    exact ih (h.alone halone)

end InTurn

section Definitions

variable {events : List (Event σ M)}

/-- Whoever is at a desk, or in its log, was called to it. -/
def CalledIn (events : List (Event σ M)) (d : Desk σ M) : Prop :=
  (∀ (i : Nat) (q : Inquiry σ M) stage, d.callers[i]? = some ⟨q, stage⟩ → .call q ∈ events) ∧
    ∀ note ∈ d.past, .call note.inquiry ∈ events

/-- Whoever is at a desk at some point was called to it. -/
lemma calledIn_run (events : List (Event σ M)) : CalledIn events (run {} events) := by
  refine run_induction (P := CalledIn events) ?empty ?step
  case empty => exact ⟨fun i q stage h => (by cases h), fun note h => (by cases h)⟩
  case step =>
    intro d event hmem h
    have hsteps := d.steps event
    generalize d.step event = after at hsteps ⊢
    cases hsteps with
    | call q =>
      refine ⟨fun i q' stage hcaller => ?_, h.2⟩
      rcases List.mem_append.1 (List.mem_of_getElem? hcaller) with hold | hnew
      · obtain ⟨j, hj⟩ := List.getElem?_of_mem hold
        exact h.1 j q' stage hj
      · cases List.mem_singleton.1 hnew
        exact hmem
    | @move i q stage deed stage' registry hcaller _ =>
      have hcalled := h.1 i q stage hcaller
      refine ⟨fun j q' stage₁ hcaller' => ?_, fun note hnote => ?_⟩
      · rcases List.mem_or_eq_of_mem_set (List.mem_of_getElem? hcaller') with hold | hnew
        · obtain ⟨k, hk⟩ := List.getElem?_of_mem hold
          exact h.1 k q' stage₁ hk
        · cases hnew
          exact hcalled
      · rcases List.mem_append.1 hnote with hold | hnew
        · exact h.2 note hold
        · cases List.mem_singleton.1 hnew
          exact hcalled
    | idle _ => exact h

/-- Where the calls for one key are all the same, each is given what its factory builds. -/
lemma answer_of_unique {i : Nat} {q : Inquiry σ M}
    {answer : Except EngineError (Shared σ M q.states)}
    (hunique : ∀ q', .call q' ∈ events → q'.key = q.key → q' = q)
    (hcaller : (run {} events).callers[i]? = some ⟨q, .returned answer⟩) :
    answer.map Shared.blueprint = q.factory.mapError EngineError.build := by
  have hsound : Sound (run {} events) := Sound.empty.run events
  obtain ⟨cause, -, -, hfactory, rfl⟩ | ⟨cached, -, hlookup, rfl⟩ :=
    (hsound.trace hcaller).returned_cases
  · rw [hfactory]
    rfl
  · obtain ⟨note, hnote, -, hmade⟩ := hsound.tells.first _ _ hlookup
    have hkey : note.inquiry.key = q.key := by
      have hpred := List.find?_some hnote
      simp only [Bool.and_eq_true, decide_eq_true_eq] at hpred
      exact hpred.2
    have hsame : note.inquiry = q :=
      hunique _ ((calledIn_run events).2 note (List.mem_of_find?_eq_some hnote)) hkey
    rw [hsame] at hmade
    obtain ⟨b, hfactory, hcached⟩ := hmade
    rw [hfactory, Registry.map_share, hcached, Registry.expect, Registry.as?_self]
    rfl

end Definitions

end Desk

/-- The call for the blueprint of a definition. -/
def Inquiry.of (d : Definition σ M) (trigger : MessageType) : Inquiry σ M :=
  ⟨⟨d.id, trigger⟩, d.states, d.compile⟩

/-- Calls for blueprints agree, in whatever order they take their turns and whatever they are for:
`Desk.Agreed` holds at every point. When the calls are made one after the other, each does just what
`Registry.getOrBuild` does, and no key has its factories run with success twice. When each of them
is for the blueprint of a definition, where an identity belongs to one definition only, every call
that returns gives a blueprint with the rules that its definition compiles to, or the error that it
does not compile with, and none is refused because of its states. -/
theorem Desk.blueprints_agree :
    (∀ events : List (Event σ M), Agreed (run {} events)) ∧
    (∀ (qs : List (Inquiry σ M)) key, (run {} (inTurn 0 qs)).past.builds key ≤ 1) ∧
    (∀ (d : Desk σ M) (q : Inquiry σ M) (factory : Run σ M (Blueprint σ M q.states))
      (s : Delivery σ M), s.registry = d.registry →
      Run.result (factory s) = q.factory.mapError EngineError.build →
      (Run.final (factory s)).registry = s.registry →
      let after := d.run (alone d.callers.length q)
      let run := Registry.getOrBuild q.key q.states factory s
      after.registry = (Run.final run).registry ∧
        ∃ answer, after.callers = d.callers ++ [⟨q, .returned answer⟩] ∧
          answer.map Shared.blueprint = Run.result run) ∧
    ∀ (definitions : List (Definition σ M)) (events : List (Event σ M)),
      (∀ d ∈ definitions, ∀ d' ∈ definitions, d.id = d'.id → d = d') →
      (∀ q, .call q ∈ events → ∃ d ∈ definitions, ∃ trigger, q = .of d trigger) →
      ∀ d ∈ definitions, ∀ (i : Nat) (trigger : MessageType) answer,
        (run {} events).callers[i]? = some ⟨.of d trigger, .returned answer⟩ →
        answer.map Shared.blueprint = d.compile.mapError EngineError.build ∧
          ∀ name, answer ≠ .error (.blueprintTypeMismatch name) := by
  refine ⟨fun events => (Sound.empty.run events).agreed, fun qs => ?once, ?alone, ?definitions⟩
  case once =>
    have hempty : Thrifty ({} : Desk σ M) := ⟨fun _ => Nat.zero_le 1, fun _ _ => rfl⟩
    exact (hempty.run_inTurn qs).builds
  case alone =>
    intro d q factory s hregistry hresult hkeeps
    obtain ⟨answer, hcallers, hanswer, hafter⟩ := d.alone_getOrBuild q hregistry hresult hkeeps
    exact ⟨hafter, answer, hcallers, hanswer⟩
  case definitions =>
    intro definitions events hids hcalls d hd i trigger answer hcaller
    have hanswer : answer.map Shared.blueprint = d.compile.mapError EngineError.build := by
      refine answer_of_unique ?_ hcaller
      intro q' hcall hkey
      obtain ⟨d', hd', trigger', rfl⟩ := hcalls q' hcall
      cases hids d' hd' d hd (congrArg BlueprintKey.definition hkey)
      cases (congrArg BlueprintKey.trigger hkey : trigger' = trigger)
      rfl
    refine ⟨hanswer, ?_⟩
    rintro name rfl
    cases hcompile : d.compile with
    | ok b =>
      rw [hcompile] at hanswer
      cases hanswer
    | error cause =>
      rw [hcompile] at hanswer
      cases hanswer

namespace Vying
open Pipeline

/-- A workflow with one rule. -/
def definition : Definition Unit JobMessage where
  id := ⟨"vying", 0⟩
  states := stages
  rules := [
    .start Event.start.type stages.processing [idle],
    .correlate Event.start.type JobMessage.id]

/-- What the workflow compiles to. -/
def blueprint : Blueprint Unit JobMessage stages where
  definition := ⟨"vying", 0⟩
  starts := Keyed.empty.insert Event.start.type ⟨stages.processing, [idle]⟩
  transfers := Keyed.empty
  selectors := Keyed.empty.insert Event.start.type JobMessage.id

/-- The workflow compiles to its blueprint. -/
lemma compile_eq : definition.compile = .ok blueprint := rfl

/-- The call for the workflow. -/
def proper : Inquiry Unit JobMessage := ⟨⟨⟨"vying", 0⟩, Event.start.type⟩, stages, .ok blueprint⟩

/-- The call for the workflow has its blueprint as what its factory gives. -/
lemma proper_eq : .of definition Event.start.type = proper := rfl

/-- A call for the same key with a factory of its own. -/
def rival : Inquiry Unit JobMessage where
  key := proper.key
  states := stages
  factory := .ok ⟨⟨"rival", 0⟩, Keyed.empty, Keyed.empty, Keyed.empty⟩

/-- Other states than those of a job. -/
def lamps : StateSet where
  name := "Lamp"
  members := [⟨"Off", 0⟩, ⟨"On", 1⟩]

/-- A call for the same key that expects other states. -/
def stranger : Inquiry Unit JobMessage where
  key := proper.key
  states := lamps
  factory := .error (.duplicateStart "lamp" "Switch")

/-- A call for another key whose factory fails. -/
def broken : Inquiry Unit JobMessage where
  key := ⟨⟨"lamp", 0⟩, Event.start.type⟩
  states := lamps
  factory := .error (.duplicateStart "lamp" "Switch")

/-- Both of the first two calls find nothing and build; the second hands in first. -/
def events : List (Desk.Event Unit JobMessage) :=
  [.call proper, .call rival, .turn 0, .turn 1, .turn 1, .turn 0, .turn 1, .turn 0, .turn 0,
    .turn 1, .call stranger, .turn 2, .turn 2, .call broken, .turn 3, .turn 3, .turn 3]

/-- The desk after these events. -/
def vied : Desk Unit JobMessage := Desk.run {} events

/-- An engine on which nothing was asked for yet. -/
def engine : Engine Unit JobMessage := { app := () }

/-- Two calls that race for a key are both given what the faster one has built, a third one that
expects other states is refused it, and one whose factory fails returns the error. One after the
other, at most one of the two builds. A call that is left to itself does what `Registry.blueprint`
does, and it is given what the workflow compiles to. -/
theorem vying_agree :
    (∃ first second, vied.callers[0]? = some ⟨proper, .returned (.ok first)⟩ ∧
      vied.callers[1]? = some ⟨rival, .returned (.ok second)⟩ ∧
      first.cached = second.cached ∧ rival.Made first.cached) ∧
    (vied.callers[2]? =
        some ⟨stranger, .returned (.error (.blueprintTypeMismatch "vying"))⟩ ∧
      .found ∈ vied.past.deeds 2 ∧
      ∃ cached, vied.registry.lookup stranger.key = some cached ∧ cached.states ≠ lamps) ∧
    (vied.callers[3]? =
        some ⟨broken, .returned (.error (.build (.duplicateStart "lamp" "Switch")))⟩ ∧
      (vied.step (.turn 3)).registry = vied.registry) ∧
    vied.registry.size = 1 ∧
    (Desk.run {} (Desk.inTurn 0 [proper, rival])).past.builds proper.key ≤ 1 ∧
    ∃ shared, (Desk.run {} (Desk.alone 0 proper)).callers =
        [⟨proper, .returned (.ok shared)⟩] ∧
      definition.compile = .ok shared.blueprint ∧
      .ok shared.blueprint = Run.result (Registry.blueprint definition Event.start.type
        (engine.delivery false)) := by
  obtain ⟨hagreed, honce, halone, hdefinitions⟩ :=
    Desk.blueprints_agree (σ := Unit) (M := JobMessage)
  have h : vied.Agreed := hagreed events
  refine ⟨?race, ?stranger, ?broken, ?size, honce _ _, ?alone⟩
  case race =>
    obtain ⟨first, hfirst⟩ : ∃ first, vied.callers[0]? =
      some ⟨proper, .returned (.ok first)⟩ := ⟨_, rfl⟩
    obtain ⟨second, hsecond⟩ : ∃ second, vied.callers[1]? =
      some ⟨rival, .returned (.ok second)⟩ := ⟨_, rfl⟩
    obtain ⟨-, note, hnote, -, hmade⟩ := h.first hfirst
    have hrival : vied.past.first? proper.key = some ⟨1, rival, .inserted⟩ := rfl
    cases hrival.symm.trans hnote
    exact ⟨first, second, hfirst, hsecond, h.same hfirst hsecond rfl, hmade⟩
  case stranger =>
    have hcaller : vied.callers[2]? =
      some ⟨stranger, .returned (.error (.blueprintTypeMismatch "vying"))⟩ := rfl
    have hfound : .found ∈ vied.past.deeds 2 := by decide +kernel
    obtain ⟨cached, hlookup, hmismatch, -⟩ := h.mismatch hcaller (.inl hfound)
    exact ⟨hcaller, hfound, cached, hlookup, hmismatch.1 rfl⟩
  case broken =>
    have hcaller : vied.callers[3]? =
      some ⟨broken, .returned (.error (.build (.duplicateStart "lamp" "Switch")))⟩ := rfl
    exact ⟨hcaller, h.failing hcaller rfl⟩
  case size =>
    have hinserted : vied.past.inserted.length = 1 := by decide +kernel
    rw [h.counted.1, hinserted]
  case alone =>
    obtain ⟨-, answer, hcallers, hanswer⟩ :=
      halone {} proper definition.compileLogged (engine.delivery false) rfl rfl rfl
    have hcaller : (Desk.run {} (Desk.alone 0 proper)).callers[0]? =
        some ⟨.of definition Event.start.type, .returned answer⟩ :=
      congrArg (fun callers => callers[0]?) hcallers
    have hids : ∀ d ∈ [definition], ∀ d' ∈ [definition], d.id = d'.id → d = d' := by simp
    have hcalls : ∀ q, .call q ∈ Desk.alone 0 proper →
        ∃ d ∈ [definition], ∃ trigger, q = .of d trigger := by
      intro q hq
      refine ⟨definition, List.mem_singleton.2 rfl, Event.start.type, ?_⟩
      rw [proper_eq]
      simpa [Desk.alone] using hq
    obtain ⟨hcompiled, -⟩ := hdefinitions [definition] _ hids hcalls definition
      (List.mem_singleton.2 rfl) 0 Event.start.type answer hcaller
    rw [compile_eq] at hcompiled
    cases hshared : answer with
    | error e =>
      rw [hshared] at hcompiled
      cases hcompiled
    | ok shared =>
      rw [hshared] at hcompiled hcallers hanswer
      have hblueprint : shared.blueprint = blueprint := Except.ok.inj hcompiled
      exact ⟨shared, hcallers, hblueprint ▸ compile_eq, hanswer⟩

end Vying

end Saga
