import Mathlib.Data.List.Basic
import Saga.Proofs.Dispatch.Fetch

/-!
# Calls on a registry at the same time

Several calls may ask a registry for blueprints at the same time. Each looks its key up, runs its
factory if nothing was found, hands in what it has built and returns what is kept; each of these is
a turn of its own, and a factory runs while nobody else has to wait. A `Desk` is a registry with the
calls that were made on it, each as far as it has come, and a log of what was done in which turn.
`Desk.run` takes any list of events, so a statement about all lists is one about all interleavings,
at every point. A call that takes its turns alone does what `Registry.getOrBuild` does
(`Desk.alone_getOrBuild`).
-/

namespace Saga

variable {σ M : Type}

/-- A kept blueprint over the states `S`: not only its rules, but also which one it is. -/
structure Shared (σ M : Type) (S : StateSet) where
  cached : CachedBlueprint σ M
  states_eq : cached.states = S

/-- The blueprint that is shared, over its states. -/
def Shared.blueprint {S : StateSet} (s : Shared σ M S) : Blueprint σ M S :=
  s.states_eq ▸ s.cached.blueprint

/-- Takes a kept blueprint for one over the states `S`, without losing which one it is. -/
def Registry.share (key : BlueprintKey) (S : StateSet) (cached : CachedBlueprint σ M) :
    Except EngineError (Shared σ M S) :=
  if h : cached.states = S then .ok ⟨cached, h⟩
  else .error (.blueprintTypeMismatch key.definition.name)

/-- Apart from which entry it is, what is shared is what the registry would give. -/
lemma Registry.map_share (key : BlueprintKey) (S : StateSet) (cached : CachedBlueprint σ M) :
    (share key S cached).map Shared.blueprint = expect key S cached := by
  unfold share expect CachedBlueprint.as?
  by_cases h : cached.states = S
  · rw [dif_pos h, dif_pos h]
    rfl
  · rw [dif_neg h, dif_neg h]
    rfl

/-- A call for the blueprint under a key: the states that it expects, and what its factory gives. A
call runs its factory at most once, so this is all that the factory can do to the call. -/
structure Inquiry (σ M : Type) where
  key : BlueprintKey
  states : StateSet
  factory : Except BuildError (Blueprint σ M states)

/-- What a call does in one of its turns. -/
inductive Deed where
  /-- The look-up finds an entry. -/
  | found
  | missed
  /-- The factory builds a blueprint. -/
  | built
  /-- The factory fails. -/
  | failed
  /-- What was built is kept. -/
  | inserted
  /-- What was built is given up for an entry that has come in meanwhile. -/
  | overtaken
  | returned
  deriving DecidableEq, Repr

/-- Whether a blueprint is handed in. -/
def Deed.offers : Deed → Bool
  | inserted | overtaken => true
  | _ => false

namespace Inquiry

/-- How far a call has come. -/
inductive Stage (q : Inquiry σ M) where
  | called
  | missed
  | built (blueprint : Blueprint σ M q.states)
  | failed (cause : BuildError)
  /-- The call has an entry, found or kept. -/
  | got (cached : CachedBlueprint σ M)
  | returned (answer : Except EngineError (Shared σ M q.states))

/-- One turn of a call that has not returned: what it does, how far that takes it, and the registry
afterwards. -/
def turn (q : Inquiry σ M) (r : Registry σ M) : q.Stage → Option (Deed × q.Stage × Registry σ M)
  | .called =>
    match r.lookup q.key with
    | some cached => some (.found, .got cached, r)
    | none => some (.missed, .missed, r)
  | .missed =>
    match q.factory with
    | .ok b => some (.built, .built b, r)
    | .error cause => some (.failed, .failed cause, r)
  | .built b =>
    let kept := r.insertIfAbsent q.key b
    some (if r.contains q.key then .overtaken else .inserted, .got kept.1, kept.2)
  | .failed cause => some (.returned, .returned (.error (.build cause)), r)
  | .got cached => some (.returned, .returned (Registry.share q.key q.states cached), r)
  | .returned _ => none

/-- The turns of a call. -/
inductive Moves (q : Inquiry σ M) (r : Registry σ M) :
    q.Stage → Deed → q.Stage → Registry σ M → Prop where
  | found {cached} : r.lookup q.key = some cached → Moves q r .called .found (.got cached) r
  | missed : r.lookup q.key = none → Moves q r .called .missed .missed r
  | built {b} : q.factory = .ok b → Moves q r .missed .built (.built b) r
  | failed {cause} : q.factory = .error cause → Moves q r .missed .failed (.failed cause) r
  | inserted {b} : r.lookup q.key = none →
    Moves q r (.built b) .inserted (.got ⟨r.size, q.states, b⟩)
      { r with entries := r.entries.insert q.key ⟨r.size, q.states, b⟩ }
  | overtaken {b cached} : r.lookup q.key = some cached →
    Moves q r (.built b) .overtaken (.got cached) r
  | refused {cause} : Moves q r (.failed cause) .returned (.returned (.error (.build cause))) r
  | answered {cached} :
    Moves q r (.got cached) .returned (.returned (Registry.share q.key q.states cached)) r

variable {q : Inquiry σ M} {r r' : Registry σ M} {stage stage' : q.Stage} {deed : Deed}

/-- The turns of a call are its moves. -/
lemma moves_iff : q.turn r stage = some (deed, stage', r') ↔ q.Moves r stage deed stage' r' := by
  constructor
  · intro h
    cases stage with
    | called =>
      simp only [turn] at h
      split at h
      · next cached hlookup =>
        cases h
        exact .found hlookup
      · next hlookup =>
        cases h
        exact .missed hlookup
    | missed =>
      simp only [turn] at h
      split at h
      · next b hfactory =>
        cases h
        exact .built hfactory
      · next cause hfactory =>
        cases h
        exact .failed hfactory
    | built b =>
      simp only [turn, Registry.insertIfAbsent, Registry.contains, Keyed.contains] at h
      cases hlookup : r.lookup q.key with
      | none =>
        have hget : r.entries.get? q.key = none := hlookup
        simp only [hlookup, hget] at h
        cases h
        exact .inserted hlookup
      | some cached =>
        have hget : r.entries.get? q.key = some cached := hlookup
        simp only [hlookup, hget] at h
        cases h
        exact .overtaken hlookup
    | failed cause =>
      cases h
      exact .refused
    | got cached =>
      cases h
      exact .answered
    | returned answer => cases h
  · intro h
    cases h with
    | found hlookup | missed hlookup => simp only [turn, hlookup]
    | built hfactory | failed hfactory => simp only [turn, hfactory]
    | inserted hlookup | overtaken hlookup =>
      have hget := hlookup
      rw [Registry.lookup] at hget
      simp [turn, Registry.insertIfAbsent, Registry.contains, Keyed.contains, hlookup, hget]
    | refused | answered => rfl

/-- A call without a turn has returned. -/
lemma turn_eq_none (h : q.turn r stage = none) : ∃ answer, stage = .returned answer := by
  cases stage with
  | called =>
    simp only [turn] at h
    split at h <;> cases h
  | missed =>
    simp only [turn] at h
    split at h <;> cases h
  | returned answer => exact ⟨answer, rfl⟩
  | _ => cases h

/-- The number of turns that a call needs at most before it has returned. -/
def Stage.rank : q.Stage → Nat
  | .called => 4
  | .missed => 3
  | .built _ => 2
  | .failed _ => 1
  | .got _ => 1
  | .returned _ => 0

/-- A call that needs no more turns has returned. -/
lemma Stage.eq_returned_of_rank (h : stage.rank = 0) : ∃ answer, stage = .returned answer := by
  cases stage with
  | returned answer => exact ⟨answer, rfl⟩
  | _ => cases h

namespace Moves

/-- A move brings a call closer to its return. -/
lemma rank_lt (h : q.Moves r stage deed stage' r') : stage'.rank < stage.rank := by
  cases h <;> simp [Stage.rank]

/-- No turn replaces an entry or takes one out. -/
lemma extends_registry (h : q.Moves r stage deed stage' r') : r'.Extends r := by
  cases h with
  | @inserted b hlookup =>
    have hinserted := Registry.extends_insertIfAbsent r q.key b
    rw [Registry.insertIfAbsent, hlookup] at hinserted
    exact hinserted
  | _ => exact .refl r

end Moves

end Inquiry

/-- A call as far as it has come. -/
structure Caller (σ M : Type) where
  inquiry : Inquiry σ M
  stage : inquiry.Stage

/-- An entry of the log of a desk: which call did what. -/
structure Note (σ M : Type) where
  caller : Nat
  inquiry : Inquiry σ M
  deed : Deed

/-- What was done so far, the oldest first. -/
abbrev Log (σ M : Type) := List (Note σ M)

/-- A registry, the calls that were made on it, and what they did so far. -/
structure Desk (σ M : Type) where
  registry : Registry σ M := {}
  callers : List (Caller σ M) := []
  past : Log σ M := []

namespace Desk

/-- What can happen at a desk. -/
inductive Event (σ M : Type) where
  | call (q : Inquiry σ M)
  /-- A call takes its next turn. -/
  | turn (i : Nat)

/-- Whether an event is a turn of the call `i`. -/
def Event.isTurn (i : Nat) : Event σ M → Bool
  | call _ => false
  | turn j => j = i

/-- Makes a call, or lets one take its next turn. -/
def step (d : Desk σ M) : Event σ M → Desk σ M
  | .call q => { d with callers := d.callers ++ [⟨q, .called⟩] }
  | .turn i =>
    match d.callers[i]? with
    | none => d
    | some c =>
      match c.inquiry.turn d.registry c.stage with
      | none => d
      | some (deed, stage, registry) =>
        ⟨registry, d.callers.set i ⟨c.inquiry, stage⟩, d.past ++ [⟨i, c.inquiry, deed⟩]⟩

/-- Lets events happen one after the other. -/
def run (d : Desk σ M) (events : List (Event σ M)) : Desk σ M := events.foldl step d

/-- Events are run in two parts, one after the other. -/
lemma run_append (d : Desk σ M) (events more : List (Event σ M)) :
    d.run (events ++ more) = (d.run events).run more :=
  List.foldl_append

/-- What holds of a desk and is kept by the events of a run holds after it. -/
lemma run_induction {d : Desk σ M} {P : Desk σ M → Prop} {events : List (Event σ M)} (hd : P d)
    (hstep : ∀ d, ∀ event ∈ events, P d → P (d.step event)) : P (d.run events) := by
  induction events generalizing d with
  | nil => exact hd
  | cons event rest ih =>
    apply ih (hstep d event List.mem_cons_self hd)
    exact fun d' event' hmem => hstep d' event' (List.mem_cons_of_mem event hmem)

/-- An event is a call, a turn of a call, or nothing. -/
inductive Steps (d : Desk σ M) : Event σ M → Desk σ M → Prop where
  | call (q : Inquiry σ M) : Steps d (.call q) { d with callers := d.callers ++ [⟨q, .called⟩] }
  | move {i} {q : Inquiry σ M} {stage deed stage' registry} :
    d.callers[i]? = some ⟨q, stage⟩ → q.Moves d.registry stage deed stage' registry →
    Steps d (.turn i) ⟨registry, d.callers.set i ⟨q, stage'⟩, d.past ++ [⟨i, q, deed⟩]⟩
  | idle {i} :
    (∀ (q : Inquiry σ M) stage, d.callers[i]? = some ⟨q, stage⟩ →
      ∃ answer, stage = .returned answer) → Steps d (.turn i) d

variable {d : Desk σ M} {i : Nat} {q : Inquiry σ M} {stage stage' : q.Stage}

/-- Whatever happens at a desk is a call, a turn of a call, or nothing. -/
lemma steps (d : Desk σ M) (event : Event σ M) : d.Steps event (d.step event) := by
  cases event with
  | call q => exact .call q
  | turn i =>
    simp only [step]
    cases hcaller : d.callers[i]? with
    | none => exact .idle fun q stage h => by cases hcaller.symm.trans h
    | some c =>
      obtain ⟨q, stage⟩ := c
      dsimp only
      cases hturn : q.turn d.registry stage with
      | none =>
        refine .idle fun q' stage' h => ?_
        cases hcaller.symm.trans h
        exact Inquiry.turn_eq_none hturn
      | some moved =>
        obtain ⟨deed, stage', registry⟩ := moved
        exact .move hcaller (Inquiry.moves_iff.1 hturn)

/-- A call that takes a turn. -/
lemma step_turn {deed : Deed} {registry : Registry σ M} (hcaller : d.callers[i]? = some ⟨q, stage⟩)
    (hmoves : q.Moves d.registry stage deed stage' registry) :
    d.step (.turn i) =
      ⟨registry, d.callers.set i ⟨q, stage'⟩, d.past ++ [⟨i, q, deed⟩]⟩ := by
  simp only [step, hcaller, Inquiry.moves_iff.2 hmoves]

/-- The registry keeps what it keeps, whatever happens. -/
lemma extends_run (d : Desk σ M) (events : List (Event σ M)) :
    (d.run events).registry.Extends d.registry := by
  refine run_induction (P := fun d' => d'.registry.Extends d.registry) (.refl _) ?_
  intro d' event _ h
  have hsteps := d'.steps event
  generalize d'.step event = after at hsteps ⊢
  cases hsteps with
  | call q => exact h
  | move _ hmoves => exact hmoves.extends_registry.trans h
  | idle _ => exact h

/-- A call stays the call that it is, and every turn of it takes it further. -/
lemma caller_step (hcaller : d.callers[i]? = some ⟨q, stage⟩) (event : Event σ M) :
    ∃ stage' : q.Stage, (d.step event).callers[i]? = some ⟨q, stage'⟩ ∧
      stage'.rank ≤ stage.rank - if event.isTurn i then 1 else 0 := by
  have hlt : i < d.callers.length := (List.getElem?_eq_some_iff.1 hcaller).1
  have hsteps := d.steps event
  generalize d.step event = after at hsteps ⊢
  cases hsteps with
  | call q' => exact ⟨stage, by rw [List.getElem?_append_left hlt, hcaller], Nat.le_refl _⟩
  | @move j q' stage₁ deed stage₂ registry hmoving hmoves =>
    by_cases hji : j = i
    · subst hji
      cases hcaller.symm.trans hmoving
      refine ⟨stage₂, List.getElem?_set_self hlt, ?_⟩
      have hrank := hmoves.rank_lt
      simp only [Event.isTurn, decide_true, if_true]
      omega
    · refine ⟨stage, by rw [List.getElem?_set_ne hji, hcaller], ?_⟩
      simp [Event.isTurn, hji]
  | @idle j hidle =>
    refine ⟨stage, hcaller, ?_⟩
    by_cases hji : j = i
    · subst hji
      obtain ⟨answer, rfl⟩ := hidle q stage hcaller
      exact Nat.zero_le _
    · simp [Event.isTurn, hji]

/-- Every turn that a call is given brings it closer to its return, until it has returned. -/
lemma caller_run (hcaller : d.callers[i]? = some ⟨q, stage⟩) (events : List (Event σ M)) :
    ∃ stage' : q.Stage, (d.run events).callers[i]? = some ⟨q, stage'⟩ ∧
      stage'.rank ≤ stage.rank - events.countP (Event.isTurn i) := by
  induction events generalizing d stage with
  | nil => exact ⟨stage, hcaller, Nat.le_refl _⟩
  | cons event rest ih =>
    obtain ⟨stage₁, hcaller₁, hrank₁⟩ := caller_step hcaller event
    obtain ⟨stage₂, hcaller₂, hrank₂⟩ := ih hcaller₁
    refine ⟨stage₂, hcaller₂, ?_⟩
    rw [List.countP_cons]
    omega

/-- A call that has had four turns has returned. -/
lemma returned_of_turns (hcaller : d.callers[i]? = some ⟨q, stage⟩) {events : List (Event σ M)}
    (hturns : 4 ≤ events.countP (Event.isTurn i)) :
    ∃ answer, (d.run events).callers[i]? = some ⟨q, .returned answer⟩ := by
  obtain ⟨stage', hcaller', hrank⟩ := caller_run hcaller events
  have hstage : stage.rank ≤ 4 := by cases stage <;> simp [Inquiry.Stage.rank]
  obtain ⟨answer, rfl⟩ := Inquiry.Stage.eq_returned_of_rank (show stage'.rank = 0 by omega)
  exact ⟨answer, hcaller'⟩

section Alone

/-- A call that takes its turns alone, as the call number `n`. -/
def alone (n : Nat) (q : Inquiry σ M) : List (Event σ M) :=
  [.call q, .turn n, .turn n, .turn n, .turn n]

/-- Calls that are made one after the other, the first of them as the call number `n`. -/
def inTurn : Nat → List (Inquiry σ M) → List (Event σ M)
  | _, [] => []
  | n, q :: rest => alone n q ++ inTurn (n + 1) rest

/-- What becomes of a desk by a call that takes its turns alone. -/
inductive Alone (d : Desk σ M) (q : Inquiry σ M) : Desk σ M → Prop where
  | found {cached} : d.registry.lookup q.key = some cached →
    Alone d q ⟨d.registry,
      d.callers ++ [⟨q, .returned (Registry.share q.key q.states cached)⟩],
      d.past ++ [⟨d.callers.length, q, .found⟩, ⟨d.callers.length, q, .returned⟩]⟩
  | failed {cause} : d.registry.lookup q.key = none → q.factory = .error cause →
    Alone d q ⟨d.registry, d.callers ++ [⟨q, .returned (.error (.build cause))⟩],
      d.past ++ [⟨d.callers.length, q, .missed⟩, ⟨d.callers.length, q, .failed⟩,
        ⟨d.callers.length, q, .returned⟩]⟩
  | built {b} : d.registry.lookup q.key = none → q.factory = .ok b →
    Alone d q ⟨(d.registry.insertIfAbsent q.key b).2,
      d.callers ++ [⟨q, .returned (.ok ⟨⟨d.registry.size, q.states, b⟩, rfl⟩)⟩],
      d.past ++ [⟨d.callers.length, q, .missed⟩, ⟨d.callers.length, q, .built⟩,
        ⟨d.callers.length, q, .inserted⟩, ⟨d.callers.length, q, .returned⟩]⟩

/-- The turn of the call that was made last. -/
lemma step_last {r registry : Registry σ M} {callers : List (Caller σ M)} {past : Log σ M}
    {deed : Deed} (hmoves : q.Moves r stage deed stage' registry) :
    (⟨r, callers ++ [⟨q, stage⟩], past⟩ : Desk σ M).step (.turn callers.length) =
      ⟨registry, callers ++ [⟨q, stage'⟩], past ++ [⟨callers.length, q, deed⟩]⟩ := by
  have hcaller : (callers ++ [⟨q, stage⟩])[callers.length]? = some ⟨q, stage⟩ := by simp
  refine (step_turn (d := ⟨r, callers ++ [⟨q, stage⟩], past⟩) hcaller hmoves).trans ?_
  simp

/-- A turn of the last call does nothing once it has returned. -/
lemma step_last_returned {r : Registry σ M} {callers : List (Caller σ M)} {past : Log σ M}
    (answer : Except EngineError (Shared σ M q.states)) :
    (⟨r, callers ++ [⟨q, .returned answer⟩], past⟩ : Desk σ M).step (.turn callers.length) =
      ⟨r, callers ++ [⟨q, .returned answer⟩], past⟩ := by
  simp [step, Inquiry.turn]

/-- A call that takes its turns alone finds an entry, fails with its factory, or puts in what it has
built. -/
lemma run_alone (d : Desk σ M) (q : Inquiry σ M) :
    d.Alone q (d.run (alone d.callers.length q)) := by
  obtain ⟨registry, callers, past⟩ := d
  simp only [run, alone, List.foldl_cons, List.foldl_nil]
  rw [show (⟨registry, callers, past⟩ : Desk σ M).step (.call q) =
    ⟨registry, callers ++ [⟨q, .called⟩], past⟩ from rfl]
  cases hlookup : registry.lookup q.key with
  | some cached =>
    rw [step_last (.found hlookup), step_last .answered, step_last_returned, step_last_returned,
      List.append_assoc]
    exact .found hlookup
  | none =>
    rw [step_last (.missed hlookup)]
    cases hfactory : q.factory with
    | error cause =>
      rw [step_last (.failed hfactory), step_last .refused, step_last_returned,
        List.append_assoc, List.append_assoc]
      exact .failed hlookup hfactory
    | ok b =>
      have halone := Alone.built (d := ⟨registry, callers, past⟩) hlookup hfactory
      rw [step_last (.built hfactory), step_last (.inserted hlookup), step_last .answered,
        List.append_assoc, List.append_assoc, List.append_assoc]
      simp only [Registry.insertIfAbsent, hlookup] at halone
      simp only [Registry.share, dif_pos]
      exact halone

/-- A call that takes its turns alone does what `Registry.getOrBuild` does. -/
lemma alone_getOrBuild (d : Desk σ M) (q : Inquiry σ M) {factory : Run σ M (Blueprint σ M q.states)}
    {s : Delivery σ M} (hregistry : s.registry = d.registry)
    (hresult : Run.result (factory s) = q.factory.mapError EngineError.build)
    (hkeeps : (Run.final (factory s)).registry = s.registry) :
    ∃ answer, (d.run (alone d.callers.length q)).callers =
        d.callers ++ [⟨q, .returned answer⟩] ∧
      answer.map Shared.blueprint =
        Run.result (Registry.getOrBuild q.key q.states factory s) ∧
      (d.run (alone d.callers.length q)).registry =
        (Run.final (Registry.getOrBuild q.key q.states factory s)).registry := by
  rw [Registry.getOrBuild_apply]
  have halone := d.run_alone q
  generalize d.run (alone d.callers.length q) = after at halone ⊢
  cases halone with
  | @found cached hlookup =>
    have hkept : s.registry.lookup q.key = some cached := by rw [hregistry, hlookup]
    refine ⟨_, rfl, ?_, ?_⟩
    · simp only [hkept, Run.result_ofExcept, Registry.map_share]
    · simp only [hkept, Run.final_ofExcept]
      exact hregistry.symm
  | @failed cause hlookup hfactory =>
    rw [hfactory] at hresult
    cases hrun : factory s with
    | ok b s' =>
      rw [hrun] at hresult
      cases hresult
    | error e s' =>
      rw [hrun] at hresult hkeeps
      cases hresult
      refine ⟨_, rfl, ?_, ?_⟩
      · rw [hregistry, hlookup]
        rfl
      · rw [hregistry, hlookup]
        exact (hkeeps.trans hregistry).symm
  | @built b hlookup hfactory =>
    rw [hfactory] at hresult
    cases hrun : factory s with
    | error e s' =>
      rw [hrun] at hresult
      cases hresult
    | ok b' s' =>
      rw [hrun] at hresult hkeeps
      cases hresult
      have hkept : s'.registry = d.registry := hkeeps.trans hregistry
      have hexpect : Registry.expect q.key q.states
          (s'.registry.insertIfAbsent q.key b).1 = .ok b := by
        simp only [Registry.insertIfAbsent, hkept, hlookup, Registry.expect, Registry.as?_self]
      refine ⟨_, rfl, ?_, ?_⟩
      · rw [hregistry, hlookup]
        simp only [hexpect]
        rfl
      · rw [hregistry, hlookup]
        simp only [hexpect]
        rw [← hkept]
        rfl

end Alone

end Desk

end Saga
