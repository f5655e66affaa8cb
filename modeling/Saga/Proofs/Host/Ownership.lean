import Saga.Proofs.Builder.Clauses
import Saga.Proofs.Builder.Validation
import Saga.Proofs.Host.Decoding
import Saga.Proofs.Host.Repeats

/-!
# The owners of partition names

What a subscription comes to can be told from those that were accepted before it: it is refused if a
namesake with another identity is among them, and else if the definition does not compile
(`Host.verdict`). `Host.Claimed` says that a host keeps names, handlers and blueprints for the
accepted subscriptions and for nothing else. A refused call leaves the host as it was, an accepted
one keeps it claimed (`Host.Claimed.step`), so after any calls each name has one owner at most, and
one that nobody was accepted with is free (`Host.name_has_one_owner`).
-/

namespace Saga

variable {σ M : Type}

/-! ## The errors of definitions -/

namespace Builder

variable {S : StateSet} {calls : List (Call σ M S)} {b b' : Builder σ M S} {e : BuildError}

/-- Calls fail for a slot that is taken. -/
lemma performAll_error (h : performAll calls b = .error e b') :
    ∃ (slot : Slot S) (definition : String), e = slot.duplicate definition := by
  induction calls generalizing b with
  | nil => cases h
  | cons call rest ih =>
    rcases call.perform_cases b with ⟨slot, hslot, htaken⟩ | ⟨next, haccepts⟩
    · cases (performAll_cons_of_taken hslot htaken).symm.trans h
      exact ⟨slot, _, rfl⟩
    · exact ih ((performAll_cons_of_accepts haccepts).symm.trans h)

end Builder

/-- No definition fails to compile because of its name. -/
lemma Definition.compile_ne_duplicateDefinitionName (d : Definition σ M) (name : String) :
    d.compile ≠ .error (.duplicateDefinitionName name) := by
  intro h
  unfold Definition.compile at h
  rw [Builder.forM_take] at h
  split at h
  · cases Builder.build_eq_error h
  · next e b hrun =>
    obtain ⟨slot, definition, rfl⟩ := Builder.performAll_error hrun
    cases slot <;> cases h

/-- A blueprint that is fetched is kept, and so is what was kept before. -/
lemma Registry.Origin.contains_iff {d : Definition σ M} {trigger : MessageType}
    {registry registry' : Registry σ M} {b : Blueprint σ M d.states}
    (h : Origin d trigger registry b registry') (key : BlueprintKey) :
    registry'.contains key ↔ registry.contains key ∨ ⟨d.id, trigger⟩ = key := by
  cases h with
  | kept hlookup _ =>
    refine ⟨.inl, ?_⟩
    rintro (hkept | rfl)
    · exact hkept
    · exact Option.isSome_of_eq_some hlookup
  | compiled hlookup _ =>
    simp only [insertIfAbsent, hlookup]
    exact (Keyed.contains_insert _ _ _ _).trans or_comm

namespace Host

variable {h h' : Host σ M} {d : Definition σ M} {trigger : MessageType} {e : EngineError}
  {seen : List (Definition σ M × MessageType)}

/-! ## Refusals -/

/-- A name is taken just if another definition owns it. -/
lemma nameTaken_iff {id : DefinitionId} :
    h.nameTaken id = true ↔ ∃ owner, h.owners.get? id.name = some owner ∧ owner ≠ id := by
  unfold nameTaken
  cases h.owners.get? id.name <;> simp

/-- A name that is taken is noticed first, whatever else is wrong. -/
lemma subscribe_of_nameTaken (htaken : h.nameTaken d.id = true) (trigger : MessageType) :
    subscribe d trigger h = .error (.build (.duplicateDefinitionName d.id.name)) h := by
  have hget : ∀ f : Host σ M → EStateM EngineError (Host σ M) Unit, (get >>= f) h = f h h :=
    fun _ => rfl
  unfold subscribe
  rw [hget, htaken]
  rfl

/-- A subscription is refused for its name, or else because there is no blueprint for it. -/
lemma subscribe_error (hrefused : subscribe d trigger h = .error e h') :
    h.nameTaken d.id = true ∧ e = .build (.duplicateDefinitionName d.id.name) ∨
      h.nameTaken d.id = false ∧ ∃ s : Delivery σ M,
        Registry.blueprint d trigger { h.engine with } = .error e s := by
  cases hfree : h.nameTaken d.id with
  | true =>
    cases hrefused.symm.trans (subscribe_of_nameTaken hfree trigger)
    exact .inl ⟨rfl, rfl⟩
  | false =>
    have hget : ∀ f : Host σ M → EStateM EngineError (Host σ M) Unit, (get >>= f) h = f h h :=
      fun _ => rfl
    refine .inr ⟨rfl, ?_⟩
    unfold subscribe at hrefused
    rw [hget, hfree] at hrefused
    simp only [Bool.false_eq_true, if_false, bind, EStateM.bind, onEngine] at hrefused
    cases hfetch : Registry.blueprint d trigger { h.engine with } with
    | error e' s =>
      simp only [hfetch] at hrefused
      cases hrefused
      exact ⟨s, rfl⟩
    | ok b s =>
      simp only [hfetch] at hrefused
      cases hrefused

/-- A call that fails changes nothing. -/
lemma eq_of_subscribe_error (hrefused : subscribe d trigger h = .error e h') : h' = h := by
  rcases subscribe_cases h d trigger with ⟨e', hrefused'⟩ | ⟨h'', hok, -⟩
  · cases hrefused.symm.trans hrefused'
    rfl
  · cases hrefused.symm.trans hok

/-- A subscription is refused for its name just when the name is taken. -/
lemma subscribe_duplicate_iff :
    (∃ name, Run.result (subscribe d trigger h) =
        .error (.build (.duplicateDefinitionName name))) ↔
      h.nameTaken d.id = true := by
  constructor
  · rintro ⟨name, hresult⟩
    cases hrun : subscribe d trigger h with
    | ok u h' =>
      rw [hrun] at hresult
      cases hresult
    | error e h' =>
      rw [hrun] at hresult
      cases hresult
      rcases subscribe_error hrun with ⟨htaken, -⟩ | ⟨-, s, hfetch⟩
      · exact htaken
      · rcases Registry.blueprint_error hfetch with ⟨cause, hcompile, hcause⟩ | ⟨-, hcause⟩
        · cases hcause
          exact absurd hcompile (d.compile_ne_duplicateDefinitionName name)
        · cases hcause
  · intro htaken
    exact ⟨d.id.name, congrArg Run.result (subscribe_of_nameTaken htaken trigger)⟩

/-! ## What was accepted -/

/-- What a subscription comes to after others that were accepted. -/
def verdict (seen : List (Definition σ M × MessageType)) (d : Definition σ M) :
    Except EngineError Unit :=
  if seen.any fun s => s.1.id.name = d.id.name ∧ s.1.id ≠ d.id then
    .error (.build (.duplicateDefinitionName d.id.name))
  else
    match d.compile with
    | .ok _ => .ok ()
    | .error cause => .error (.build cause)

/-- Definitions that ask to subscribe, one after the other. -/
def asking (calls : List (Definition σ M × MessageType)) : List (Event σ M) :=
  calls.map fun s => .subscribe s.1 s.2

/-- Whether a host has the names and the blueprints of the subscriptions that were accepted since
the first one, and nothing more. -/
structure Claimed (h start : Host σ M) (seen : List (Definition σ M × MessageType)) : Prop where
  owners : ∀ name id, h.owners.get? name = some id ↔ ∃ s ∈ seen, s.1.id = id ∧ id.name = name
  registry : ∀ key, h.engine.registry.contains key ↔
    start.engine.registry.contains key ∨ ∃ s ∈ seen, ⟨s.1.id, s.2⟩ = key
  faithful : ∀ d, start.engine.registry.Faithful d → (∀ s ∈ seen, s.1.id = d.id → s.1 = d) →
    h.engine.registry.Faithful d

namespace Claimed

variable {start : Host σ M}

/-- A host without owners has accepted nothing. -/
lemma opened (hnew : start.owners = Keyed.empty) : start.Claimed start [] where
  owners name id := by simp [hnew]
  registry key := by simp
  faithful d hd _ := hd

/-- A name is taken from those that are not the one that was accepted with it. -/
lemma nameTaken_iff (hh : h.Claimed start seen) {id : DefinitionId} :
    h.nameTaken id = true ↔ ∃ s ∈ seen, s.1.id.name = id.name ∧ s.1.id ≠ id := by
  rw [Host.nameTaken_iff]
  constructor
  · rintro ⟨owner, howner, hne⟩
    obtain ⟨s, hs, rfl, hname⟩ := (hh.owners _ _).1 howner
    exact ⟨s, hs, hname, hne⟩
  · rintro ⟨s, hs, hname, hne⟩
    exact ⟨s.1.id, (hh.owners _ _).2 ⟨s, hs, rfl, hname⟩, hne⟩

/-- Each name has one owner. -/
lemma eq_of_name (hh : h.Claimed start seen) {s s' : Definition σ M × MessageType} (hs : s ∈ seen)
    (hs' : s' ∈ seen) (hname : s.1.id.name = s'.1.id.name) : s.1.id = s'.1.id := by
  have howner := (hh.owners s'.1.id.name s.1.id).2 ⟨s, hs, rfl, hname⟩
  rw [(hh.owners s'.1.id.name s'.1.id).2 ⟨s', hs', rfl, rfl⟩] at howner
  exact (Option.some.inj howner).symm

/-- An accepted subscription is kept like those before it. -/
lemma accept (hh : h.Claimed start seen) (haccepted : Accepted d trigger h h') :
    h'.Claimed start (seen ++ [(d, trigger)]) := by
  obtain ⟨b, registry, log, horigin, hengine⟩ := haccepted.engine
  have hregistry : h'.engine.registry = registry := by rw [hengine]
  refine ⟨?owners, ?registry, ?faithful⟩
  case owners =>
    intro name id
    rw [haccepted.owners, Keyed.get?_insert]
    simp only [List.mem_append, List.mem_singleton, or_and_right, exists_or, exists_eq_left]
    split
    · next hname =>
      subst hname
      constructor
      · intro hid
        cases hid
        exact .inr ⟨rfl, rfl⟩
      · rintro (hold | ⟨rfl, -⟩)
        · -- The name was not taken, so its owner is the definition itself.
          exact congrArg some
            (eq_of_not_nameTaken haccepted.free ((hh.owners _ _).2 hold)).symm
        · rfl
    · next hname =>
      rw [hh.owners]
      refine ⟨.inl, ?_⟩
      rintro (hold | ⟨rfl, hname'⟩)
      · exact hold
      · exact absurd hname' hname
  case registry =>
    intro key
    rw [hregistry, horigin.contains_iff, hh.registry]
    simp only [List.mem_append, List.mem_singleton, or_and_right, exists_or, exists_eq_left,
      or_assoc]
  case faithful =>
    intro d' hd' hsame
    rw [hregistry]
    refine (hh.faithful d' hd' fun s hs => hsame s (List.mem_append_left _ hs)).of_origin ?_ horigin
    exact hsame (d, trigger) (List.mem_append_right _ (List.mem_singleton.2 rfl))

/-- A subscription comes to what its verdict says. -/
lemma verdict (hh : h.Claimed start seen) (hd : start.engine.registry.Faithful d)
    (hsame : ∀ s ∈ seen, s.1.id = d.id → s.1 = d) (trigger : MessageType) :
    Run.result (subscribe d trigger h) = Host.verdict seen d := by
  have hfaithful := hh.faithful d hd hsame
  have htaken : (seen.any fun s => s.1.id.name = d.id.name ∧ s.1.id ≠ d.id) = h.nameTaken d.id := by
    rw [Bool.eq_iff_iff, hh.nameTaken_iff]
    simp
  unfold Host.verdict
  rw [htaken]
  cases hrun : subscribe d trigger h with
  | error e h' =>
    rcases subscribe_error hrun with ⟨hname, rfl⟩ | ⟨hfree, s, hfetch⟩
    · rw [hname]
      rfl
    · rw [hfree]
      rcases Registry.blueprint_error hfetch with
        ⟨cause, hcompile, rfl⟩ | ⟨⟨cached, hlookup, hother⟩, -⟩
      · rw [hcompile]
        rfl
      · obtain ⟨b, -, hkept⟩ := hfaithful trigger cached hlookup
        cases hother.symm.trans hkept
  | ok u h' =>
    rcases subscribe_cases h d trigger with ⟨e, hrefused⟩ | ⟨h'', hok, haccepted⟩
    · cases hrun.symm.trans hrefused
    · obtain ⟨b, registry, log, horigin, -⟩ := haccepted.engine
      rw [haccepted.free, hfaithful.compile_of_origin horigin]
      rfl

variable [Message M]

/-- Every call to subscribe keeps the claims, for one subscription more if it is accepted. -/
lemma step (hh : h.Claimed start seen) (d : Definition σ M) (trigger : MessageType) :
    (h.step (.subscribe d trigger)).Claimed start (seen ++ h.admitted (.subscribe d trigger)) := by
  rcases subscribe_cases h d trigger with ⟨e, hrefused⟩ | ⟨h', hok, haccepted⟩
  · simp only [Host.step, admitted, hrefused]
    exact (List.append_nil seen).symm ▸ hh
  · simp only [Host.step, admitted, hok]
    exact hh.accept haccepted

/-- Whatever definitions ask to subscribe, the claims are those of the accepted ones. -/
lemma run (hh : h.Claimed start seen) (calls : List (Definition σ M × MessageType)) :
    (h.run (asking calls)).Claimed start (seen ++ h.accepted (asking calls)) := by
  induction calls generalizing h seen with
  | nil => exact (List.append_nil seen).symm ▸ hh
  | cons call rest ih =>
    have hrest := ih (hh.step call.1 call.2)
    rw [List.append_assoc] at hrest
    exact hrest

end Claimed

/-- The subscriptions that are accepted are some of those that were asked for. -/
lemma accepted_sublist [Message M] (h : Host σ M) (calls : List (Definition σ M × MessageType)) :
    (h.accepted (asking calls)).Sublist calls := by
  induction calls generalizing h with
  | nil => exact .refl []
  | cons call rest ih =>
    have hadmitted : (h.admitted (.subscribe call.1 call.2)).Sublist [call] := by
      show (if _ then [call] else []).Sublist [call]
      split
      · exact .refl [call]
      · exact List.nil_sublist [call]
    exact hadmitted.append (ih _)

/-- A partition name has one owner, and a subscription that fails changes nothing. Let definitions
ask to subscribe to a host whose names are all free, in any order and any number of times, whether
they compile or not. Then the host has one handler more for each of them that was accepted, its
names belong to the definitions that were accepted with them, and it keeps a blueprint for each of
them and its message type. Those among them that share a name have the same identity. The next
subscription is refused for its name just when another definition with that name was accepted, which
comes before any defect of its own, and else it goes by whether the definition compiles. So a name
with which nobody was accepted is free for any definition that does. -/
theorem name_has_one_owner [Message M] (h : Host σ M) (hnew : h.owners = Keyed.empty)
    (calls : List (Definition σ M × MessageType)) :
    let later := h.run (asking calls)
    let seen := h.accepted (asking calls)
    seen.Sublist calls ∧
      (∀ trigger, later.handlersOf trigger = h.handlersOf trigger ++ subscribers seen trigger) ∧
      (∀ name id, later.owners.get? name = some id ↔ ∃ s ∈ seen, s.1.id = id ∧ id.name = name) ∧
      (∀ key, later.engine.registry.contains key ↔
        h.engine.registry.contains key ∨ ∃ s ∈ seen, ⟨s.1.id, s.2⟩ = key) ∧
      (∀ s ∈ seen, ∀ s' ∈ seen, s.1.id.name = s'.1.id.name → s.1.id = s'.1.id) ∧
      ∀ (d : Definition σ M) (trigger : MessageType),
        let call := subscribe d trigger later
        (∀ e after, call = .error e after → after = later) ∧
          ((∃ name, Run.result call = .error (.build (.duplicateDefinitionName name))) ↔
            ∃ s ∈ seen, s.1.id.name = d.id.name ∧ s.1.id ≠ d.id) ∧
          (h.engine.registry.Faithful d → (∀ s ∈ seen, s.1.id = d.id → s.1 = d) →
            Run.result call = verdict seen d) ∧
          ((∀ s ∈ seen, s.1.id.name ≠ d.id.name) →
            later.owners.get? d.id.name = none ∧
              (h.engine.registry.Faithful d → ∀ b, d.compile = .ok b →
                Run.result call = .ok ())) := by
  intro later seen
  have hclaimed : later.Claimed h seen := (Claimed.opened hnew).run calls
  refine ⟨accepted_sublist h calls, handlersOf_run h (asking calls), hclaimed.owners,
    hclaimed.registry, fun s hs s' hs' => hclaimed.eq_of_name hs hs', fun d trigger => ?_⟩
  refine ⟨fun e after => eq_of_subscribe_error, ?duplicate, ?verdict, ?free⟩
  case duplicate => exact subscribe_duplicate_iff.trans hclaimed.nameTaken_iff
  case verdict => exact fun hd hsame => hclaimed.verdict hd hsame trigger
  case free =>
    intro hnone
    refine ⟨?_, fun hd b hcompile => ?_⟩
    · cases howner : later.owners.get? d.id.name with
      | none => rfl
      | some owner =>
        obtain ⟨s, hs, rfl, hname⟩ := (hclaimed.owners _ _).1 howner
        exact absurd hname (hnone s hs)
    · have hsame : ∀ s ∈ seen, s.1.id = d.id → s.1 = d := fun s hs hid =>
        absurd (congrArg DefinitionId.name hid) (hnone s hs)
      have hfree : ¬ (seen.any fun s => s.1.id.name = d.id.name ∧ s.1.id ≠ d.id) := by
        simp only [List.any_eq_true, decide_eq_true_eq, not_exists, not_and]
        exact fun s hs hname => absurd hname (hnone s hs)
      rw [hclaimed.verdict hd hsame trigger, Host.verdict, if_neg hfree, hcompile]

namespace Clash
open Pipeline

/-- A host with no subscriptions. -/
def unclaimed : Host Unit JobMessage := fresh {} {} ()

/-- The name of the pipeline is claimed in vain at first, and then by the pipeline itself. -/
def claims : List (Definition Unit JobMessage × MessageType) :=
  [(broken, Event.start.type), (pipeline Unit, Event.start.type)]

/-- The first definition under a name keeps it, whatever asks for the name later, and a definition
that does not compile gets no name at all. -/
theorem pipeline_keeps_its_name :
    let later := unclaimed.run (asking claims)
    let seen := unclaimed.accepted (asking claims)
    unclaimed.owners = Keyed.empty ∧
      seen.map (fun s => (s.1.id, s.2)) = [((pipeline Unit).id, Event.start.type)] ∧
      (∃ cause, broken.compile = .error cause ∧
        Run.result (subscribe broken Event.start.type unclaimed) = .error (.build cause)) ∧
      (∃ name, Run.result (subscribe broken Event.start.type later) =
        .error (.build (.duplicateDefinitionName name))) ∧
      (∃ name, Run.result (subscribe impostor Event.heartbeat.type later) =
        .error (.build (.duplicateDefinitionName name))) ∧
      Run.result (subscribe (pipeline Unit) Event.complete.type later) = .ok () ∧
      later.owners.get? "pipeline" = some (pipeline Unit).id := by
  intro later seen
  have hseen : seen.map (fun s => (s.1.id, s.2)) = [((pipeline Unit).id, Event.start.type)] := by
    decide +kernel
  have hpipeline : ∃ s ∈ seen, s.1.id = (pipeline Unit).id := by
    have hmem := List.mem_singleton_self ((pipeline Unit).id, Event.start.type)
    rw [← hseen] at hmem
    obtain ⟨s, hs, heq⟩ := List.mem_map.1 hmem
    exact ⟨s, hs, congrArg Prod.fst heq⟩
  have hfaithful : ∀ d, unclaimed.engine.registry.Faithful d := fun _ => nofun
  have hbroken : (pipeline Unit).id ≠ broken.id := ne_of_apply_ne DefinitionId.tag nofun
  have himpostor : (pipeline Unit).id ≠ impostor.id := ne_of_apply_ne DefinitionId.tag nofun
  obtain ⟨-, -, -, -, -, hfirst⟩ := name_has_one_owner unclaimed rfl []
  obtain ⟨hsublist, -, howners, -, -, hnext⟩ := name_has_one_owner unclaimed rfl claims
  obtain ⟨s, hs, hid⟩ := hpipeline
  refine ⟨rfl, hseen, ?first, ?broken, ?impostor, ?again, ?owner⟩
  case first =>
    obtain ⟨-, -, hverdict, -⟩ := hfirst broken Event.start.type
    exact ⟨_, rfl, hverdict (hfaithful broken) nofun⟩
  case broken =>
    obtain ⟨-, hduplicate, -, -⟩ := hnext broken Event.start.type
    exact hduplicate.2 ⟨s, hs, by rw [hid]; rfl, hid ▸ hbroken⟩
  case impostor =>
    obtain ⟨-, hduplicate, -, -⟩ := hnext impostor Event.heartbeat.type
    exact hduplicate.2 ⟨s, hs, by rw [hid]; rfl, hid ▸ himpostor⟩
  case again =>
    obtain ⟨-, -, hverdict, -⟩ := hnext (pipeline Unit) Event.complete.type
    have hsame : ∀ s ∈ seen, s.1.id = (pipeline Unit).id → s.1 = pipeline Unit := by
      intro s' hs' hid'
      rcases List.mem_cons.1 (hsublist.subset hs') with rfl | hlast
      · exact absurd hid'.symm hbroken
      · rw [List.mem_singleton.1 hlast]
    have hok : (verdict seen (pipeline Unit)).isOk = true := by decide +kernel
    rw [hverdict (hfaithful _) hsame]
    cases hresult : verdict seen (pipeline Unit) with
    | ok => rfl
    | error e =>
      rw [hresult] at hok
      cases hok
  case owner => exact (howners _ _).2 ⟨s, hs, hid, rfl⟩

end Clash

end Host

end Saga
