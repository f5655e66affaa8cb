import Saga.Proofs.Interleaving.History

/-!
# Pools under either setting

Whether or not the store compares versions, a task is always in a phase of its dispatch, and what it
has found it recalls: rows never go, and their versions only rise (`Pool.Steady`). While nobody
commits a write to a row, the row is the same (`Pool.Steady.onward`).
-/

namespace Saga

variable {σ M : Type} [Message M]

namespace Errand

variable {e : Errand σ M} {phase phase' : Phase e.definition.states} {d d' : Delivery σ M}

/-- After a step the session and the store are as the new phase says. -/
lemma Stepped.carries (h : e.Stepped phase d d' phase') : e.Carries d'.store d'.session phase' := by
  cases h with
  | quiet hcarries _ _ => exact hcarries
  | landed _ _ hsession =>
    show d'.session.committed = true
    rw [hsession]
    rfl

/-- The other dispatches still recall what they have found. -/
lemma Stepped.recalls (h : e.Stepped phase d d' phase')
    (hcarries : e.Carries d.store d.session phase) {r : InstanceRecord}
    (hr : d.store.Recalls r) : d'.store.Recalls r := by
  cases h with
  | quiet _ hstore _ =>
    rw [hstore]
    exact hr
  | landed hphase hcommit _ =>
    subst hphase
    obtain ⟨-, -, -, hknows, hearned⟩ := hcarries
    obtain ⟨row, rfl, hlanded, hmoved⟩ := hearned.raises hknows hcommit
    exact hr.of_landed hlanded hmoved

/-- Forwarding a message leaves a dispatch in its phase. -/
lemma Moves.of_forward {id : DefinitionId} {m : M} {answer : Except EngineError String}
    (h : e.Moves phase (.forward id m) answer phase') : phase' = phase := by
  cases h with
  | failed _ => rfl
  | harmless _ _ _ => rfl

end Errand

/-- A task stays sound while the store recalls what it recalled. -/
lemma Task.Sound.mono {t : Task σ M} {before after : Store} (h : t.Sound before)
    (hrecalls : ∀ r, before.Recalls r → after.Recalls r) : t.Sound after := by
  obtain ⟨phase, hfollows, hcarries⟩ := h
  exact ⟨phase, hfollows, hcarries.mono hrecalls⟩

namespace Pool

/-- What is true of a pool of tame dispatches, whether or not versions count. -/
structure Steady (p : Pool σ M) : Prop where
  registry : p.engine.registry.Tame
  router : ∀ d ∈ p.router.definitions, d.Tame
  tame : ∀ (i : Nat) (t : Task σ M), p.tasks[i]? = some t →
    t.blueprint.Only Request.KeepsRows t.message
  sound : ∀ (i : Nat) (t : Task σ M), p.tasks[i]? = some t → t.Sound p.engine.store

variable {p p' : Pool σ M}

/-- A sound task in the place of another one leaves a pool steady, if the store recalls what it
recalled. -/
lemma Steady.replace (h : p.Steady) {engine : Engine σ M} {commits : List Commit} {i : Nat}
    {t : Task σ M} (hregistry : engine.registry.Tame)
    (hrecalls : ∀ r, p.engine.store.Recalls r → engine.store.Recalls r)
    (htame : t.blueprint.Only Request.KeepsRows t.message) (hsound : t.Sound engine.store) :
    Steady { p with engine, tasks := p.tasks.set i t, commits } where
  registry := hregistry
  router := h.router
  tame := by
    intro j u hu
    rcases getElem?_set_cases hu with ⟨rfl, rfl⟩ | ⟨-, hu⟩
    · exact htame
    · exact h.tame j u hu
  sound := by
    intro j u hu
    rcases getElem?_set_cases hu with ⟨rfl, rfl⟩ | ⟨-, hu⟩
    · exact hsound
    · exact (h.sound j u hu).mono hrecalls

/-- A pool stays steady when its engine changes and no row is forgotten, and a task may join it. -/
lemma Steady.extend (h : p.Steady) {engine : Engine σ M} {more : List (Task σ M)}
    (hregistry : engine.registry.Tame)
    (hrecalls : ∀ r, p.engine.store.Recalls r → engine.store.Recalls r)
    (hmore : ∀ t ∈ more, t.blueprint.Only Request.KeepsRows t.message ∧ t.Sound engine.store) :
    Steady { p with engine, tasks := p.tasks ++ more } := by
  have hcases : ∀ {j : Nat} {u : Task σ M}, (p.tasks ++ more)[j]? = some u →
      p.tasks[j]? = some u ∨ u ∈ more := by
    intro j u hu
    rw [List.getElem?_append] at hu
    split at hu
    · exact .inl hu
    · exact .inr (List.mem_of_getElem? hu)
  constructor
  case registry => exact hregistry
  case router => exact h.router
  case tame =>
    intro j u hu
    rcases hcases hu with hu | hmem
    · exact h.tame j u hu
    · exact (hmore u hmem).1
  case sound =>
    intro j u hu
    rcases hcases hu with hu | hmem
    · exact (h.sound j u hu).mono hrecalls
    · exact (hmore u hmem).2

/-- Every change leaves a pool steady. -/
lemma Steady.change (h : p.Steady) (hchange : Change Definition.Tame p p') : p'.Steady := by
  cases hchange with
  | ticked => exact ⟨h.registry, h.router, h.tame, h.sound⟩
  | drained =>
    refine ⟨h.registry, h.router, h.tame, fun i t hget => ?_⟩
    exact (h.sound i t hget).mono fun _ hr => hr
  | @launched job registry log b hasked horigin =>
    have hjob : job.definition.Tame := by
      rcases hasked with hstarted | ⟨hmem, -⟩
      · exact hstarted
      · exact h.router _ hmem
    obtain ⟨hb, hregistry⟩ := Registry.Only.of_origin h.registry hjob horigin
    refine h.extend hregistry (fun _ hr => hr) ?_
    intro t hmem
    cases List.mem_singleton.1 hmem
    exact ⟨hb job.message, .looking, Errand.script_follows (hb job.message), rfl, rfl⟩
  | @marked i t cancelled awaited hget =>
    exact h.replace h.registry (fun _ hr => hr) (h.tame i t hget) (h.sound i t hget)
  | @told i t id m next answer awaited hget hrest =>
    obtain ⟨phase, hfollows, hcarries⟩ := h.sound i t hget
    rw [hrest] at hfollows
    obtain ⟨phase', hmoves, hnext⟩ := hfollows answer trivial
    cases hmoves.of_forward
    exact h.replace h.registry (fun _ hr => hr) (h.tame i t hget) ⟨phase, hnext, hcarries⟩
  | @moved i t rest d hget hmoved =>
    obtain ⟨phase, hfollows, hcarries⟩ := h.sound i t hget
    obtain ⟨phase', hfollows', -, hstepped⟩ := Errand.stepped_of_moved hmoved hfollows hcarries
    have hregistry : d.registry = p.engine.registry := hmoved.registry
    refine h.replace (hregistry ▸ h.registry) (fun r hr => hstepped.recalls hcarries hr)
      (h.tame i t hget) ⟨phase', hfollows', hstepped.carries⟩

/-- A pool stays steady, whatever tame dispatches are started. -/
lemma Steady.run (h : p.Steady) {events : List (Event σ M)}
    (hevents : ∀ job, .start job ∈ events → job.definition.Tame) : (p.run events).Steady :=
  run_keeps Definition.Tame (fun _ _ hchange hp => hp.change hchange) hevents h

/-- A pool without tasks is steady. -/
lemma steady_start {engine : Engine σ M} {router : Router σ M} (hregistry : engine.registry.Tame)
    (hrouter : ∀ d ∈ router.definitions, d.Tame) : Steady { engine, router } :=
  ⟨hregistry, hrouter, nofun, nofun⟩

/-- With every change the writers of a row become more or stay the same, and then the row does. -/
lemma Steady.onward {allowed : Definition σ M → Prop} (h : p.Steady)
    (hchange : Change allowed p p') (key : InstanceKey) :
    p.writers key <+: p'.writers key ∧
      (p'.writers key = p.writers key →
        p'.engine.store.get? key = p.engine.store.get? key) := by
  cases hchange with
  | ticked => exact ⟨List.prefix_rfl, fun _ => rfl⟩
  | drained => exact ⟨List.prefix_rfl, fun _ => rfl⟩
  | launched _ _ => exact ⟨List.prefix_rfl, fun _ => rfl⟩
  | marked _ => exact ⟨List.prefix_rfl, fun _ => rfl⟩
  | told _ _ => exact ⟨List.prefix_rfl, fun _ => rfl⟩
  | @moved i t rest d hget hmoved =>
    obtain ⟨phase, hfollows, hcarries⟩ := h.sound i t hget
    obtain ⟨phase', -, -, hstepped⟩ := Errand.stepped_of_moved hmoved hfollows hcarries
    have hwriters : ∀ commits, Pool.writers { p with
          engine := d.toEngine
          tasks := p.tasks.set i { t with session := d.session, cancelled := d.cancelled, rest }
          commits := p.commits ++ commits } key =
        p.writers key ++ (commits.filter fun c => c.writes.any fun w => w.record.key = key).map
          Commit.task := by
      intro commits
      simp [Pool.writers, List.filter_append]
    rw [hwriters]
    refine ⟨List.prefix_append _ _, ?_⟩
    intro hsame
    cases hstepped with
    | quiet _ hstore _ => exact congrArg (fun s => Store.get? s key) hstore
    | @landed key' found write outcome hphase hcommit hsession =>
      subst hphase
      obtain ⟨hwrites, hopen, -, hknows, hearned⟩ := hcarries
      obtain ⟨row, hrow, hlanded, -⟩ := hearned.raises hknows hcommit
      -- Were it the row under the key that has landed, the task would be a writer more.
      have hother : key ≠ row.record.key := by
        rintro rfl
        have hkey := hearned.record_key hknows.record_key
        have hclosed : d.session.committed = true := by rw [hsession]; rfl
        rw [hrow] at hsame
        simp [hclosed, hopen, hwrites, hkey] at hsame
      exact hlanded.elsewhere key hother

/-- Every change leaves the store recalling what it recalled. -/
lemma Steady.recalls {allowed : Definition σ M → Prop} (h : p.Steady)
    (hchange : Change allowed p p') {r : InstanceRecord} (hr : p.engine.store.Recalls r) :
    p'.engine.store.Recalls r := by
  cases hchange with
  | @moved i t rest d hget hmoved =>
    obtain ⟨phase, hfollows, hcarries⟩ := h.sound i t hget
    obtain ⟨phase', -, -, hstepped⟩ := Errand.stepped_of_moved hmoved hfollows hcarries
    exact hstepped.recalls hcarries hr
  | _ => exact hr

end Pool

end Saga
