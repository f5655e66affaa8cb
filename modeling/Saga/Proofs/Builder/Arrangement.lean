import Saga.Pipeline
import Saga.Proofs.Builder.Clauses
import Saga.Proofs.Lists

/-!
# The order of clauses

A clause registers a rule or a selector with its first call, and its other calls are on that
registration. Clauses that are all accepted register different things, so however they are arranged,
the calls on each registration are the same and in the same order (`Builder.callsOn_of_perm`), and
no slot is claimed twice. The tables of a builder are read off the calls on one registration at a
time, and a build asks nothing but these tables and which message types are observed. So the order
of clauses makes no difference to what comes of them (`Builder.rule_order_immaterial`).
-/

namespace Saga
open Builder

variable {σ M : Type} {S : StateSet}

/-- The slot of the registration that a call makes or is on. -/
def Builder.Call.clause : Call σ M S → Slot S
  | startWhen trigger _ | executeOnStart trigger _ => .start trigger
  | onWhen source trigger | execute source trigger _ | transitionTo source trigger _ =>
    .transfer source trigger
  | correlate message _ => .selector message

/-- The slot that a clause registers first. -/
def Rule.slot : Rule σ M S → Slot S
  | start trigger _ _ => .start trigger
  | on source trigger _ => .transfer source trigger
  | correlate message _ => .selector message

/-- Tables that answer alike have the same keys, up to their order. -/
lemma Keyed.keys_perm {κ ν : Type} [DecidableEq κ] {t t' : Keyed κ ν}
    (h : ∀ k, t'.get? k = t.get? k) : t'.keys.Perm t.keys := by
  refine (List.perm_ext_iff_of_nodup t'.nodup t.nodup).2 fun k => ?_
  show k ∈ t'.keys ↔ k ∈ t.keys
  rw [← contains_iff_mem_keys, ← contains_iff_mem_keys, contains, contains, h]

/-- Tables that answer alike are of the same size. -/
lemma Keyed.size_eq {κ ν : Type} [DecidableEq κ] {t t' : Keyed κ ν}
    (h : ∀ k, t'.get? k = t.get? k) : t'.size = t.size := by
  have hlength := (keys_perm h).length_eq
  unfold keys at hlength
  rwa [List.length_map, List.length_map] at hlength

/-- Names are sorted into one list, in whatever order they come. -/
lemma sortedNames_congr {names names' : List String} (hperm : names.Perm names') :
    sortedNames names = sortedNames names' := by
  have hsorted : ∀ names : List String, (sortedNames names).Pairwise (· ≤ ·) :=
    List.pairwise_mergeSort' (· ≤ ·)
  have hboth : (sortedNames names).Perm (sortedNames names') :=
    (List.mergeSort_perm _ _).trans (hperm.trans (List.mergeSort_perm _ _).symm)
  exact hboth.eq_of_pairwise (fun _ _ _ _ => le_antisymm) (hsorted names) (hsorted names')

/-- Whether two blueprints answer every question alike. -/
structure Blueprint.Agrees [Message M] (b b' : Blueprint σ M S) : Prop where
  definition : b'.definition = b.definition
  starts : ∀ t, b'.starts.get? t = b.starts.get? t
  transfers : ∀ state t, b'.transfers.get? (state, t) = b.transfers.get? (state, t)
  selectors : ∀ t, b'.selectors.get? t = b.selectors.get? t
  handlesStart : ∀ t, b'.handlesStart t = b.handlesStart t
  handlesTransfer : ∀ state t, b'.handlesTransfer state t = b.handlesTransfer state t
  observedMessages : b'.observedMessages = b.observedMessages
  describe : b'.describe = b.describe
  correlate : ∀ m, b'.correlate m = b.correlate m
  start : ∀ m, b'.start m = b.start m
  transfer : ∀ state m, b'.transfer state m = b.transfer state m

/-- Blueprints with the same tables cannot be told apart. -/
lemma Blueprint.Agrees.of_tables [Message M] {b b' : Blueprint σ M S}
    (hdefinition : b'.definition = b.definition) (hstarts : ∀ t, b'.starts.get? t = b.starts.get? t)
    (htransfers : ∀ state t, b'.transfers.get? (state, t) = b.transfers.get? (state, t))
    (hselectors : ∀ t, b'.selectors.get? t = b.selectors.get? t) : b.Agrees b' := by
  have hobserved : b'.observedMessages = b.observedMessages :=
    sortedNames_congr ((Keyed.keys_perm hselectors).map MessageType.name)
  have htransfers' : ∀ key, b'.transfers.get? key = b.transfers.get? key :=
    fun key => htransfers key.1 key.2
  have hdescribe : b'.describe = b.describe := by
    have hstarts_size : b'.starts.size = b.starts.size := Keyed.size_eq hstarts
    have htransfers_size : b'.transfers.size = b.transfers.size := Keyed.size_eq htransfers'
    unfold Blueprint.describe
    rw [hdefinition, hobserved, hstarts_size, htransfers_size]
  exact {
    definition := hdefinition
    starts := hstarts
    transfers := htransfers
    selectors := hselectors
    handlesStart := fun t => congrArg Option.isSome (hstarts t)
    handlesTransfer := fun state t => congrArg Option.isSome (htransfers state t)
    observedMessages := hobserved
    describe := hdescribe
    correlate := fun m => by rw [Blueprint.correlate, Blueprint.correlate, hselectors, hdefinition]
    start := fun m => by rw [Blueprint.start, Blueprint.start, hstarts, hdefinition]
    transfer := fun state m => by
      rw [Blueprint.transfer, Blueprint.transfer, htransfers, hdefinition] }

namespace Builder

variable {b b' : Builder σ M S} {call : Call σ M S} {calls rest : List (Call σ M S)}
  {rules rules' : List (Rule σ M S)} {source : S.State} {t : MessageType}

/-! ## Builders with the same rules -/

/-- Whether two builders have the same rules and selectors and observe the same message types. -/
structure Alike (b b' : Builder σ M S) : Prop where
  definition : b'.definition = b.definition
  starts : ∀ t, b'.starts.get? t = b.starts.get? t
  transfers : ∀ source t, b'.transfers.get? (source, t) = b.transfers.get? (source, t)
  selectors : ∀ t, b'.selectors.get? t = b.selectors.get? t
  observed : b'.observed.Perm b.observed

namespace Alike

/-- Builders that are alike miss the same selectors, up to their order. -/
lemma missing (h : b.Alike b') : b'.missing.Perm b.missing := by
  have hfilter := h.observed.filter fun m => !b'.selectors.contains m
  refine hfilter.trans (List.Perm.of_eq ?_)
  exact List.filter_congr fun m _ => by rw [Keyed.contains, Keyed.contains, h.selectors]

/-- Builders that are alike have the same selectors too many, up to their order. -/
lemma extra (h : b.Alike b') : b'.extra.Perm b.extra := by
  have hfilter := (Keyed.keys_perm h.selectors).filter fun m => !b'.observed.contains m
  refine hfilter.trans (List.Perm.of_eq ?_)
  refine List.filter_congr fun m _ => ?_
  rw [Bool.eq_iff_iff]
  simp [h.observed.mem_iff]

/-- Such builders have the same verdict on a build, and blueprints that answer alike. -/
lemma build [Message M] (h : b.Alike b') :
    (∀ e, b'.build = .error e ↔ b.build = .error e) ∧
      ∀ blueprint, b.build = .ok blueprint →
        ∃ blueprint', b'.build = .ok blueprint' ∧ blueprint.Agrees blueprint' := by
  have hempty : (b'.missing.isEmpty && b'.extra.isEmpty) =
      (b.missing.isEmpty && b.extra.isEmpty) := by
    rw [h.missing.isEmpty_eq, h.extra.isEmpty_eq]
  have hmissing := sortedNames_congr (h.missing.map MessageType.name)
  have hextra := sortedNames_congr (h.extra.map MessageType.name)
  unfold Builder.build
  rw [hempty, hmissing, hextra, h.definition]
  split
  case isTrue =>
    refine ⟨fun e => ⟨nofun, nofun⟩, ?_⟩
    rintro _ ⟨⟩
    exact ⟨_, rfl, .of_tables rfl h.starts h.transfers h.selectors⟩
  case isFalse => exact ⟨fun e => .rfl, nofun⟩

end Alike

/-! ## The calls on a registration -/

/-- The calls that make a registration and are on it, in their order. -/
def callsOn (slot : Slot S) (calls : List (Call σ M S)) : List (Call σ M S) :=
  calls.filter fun call => call.clause = slot

/-- What a function picks from the calls on one slot, it picks from all calls, if it picks from no
others. -/
lemma filterMap_callsOn {α : Type} {f : Call σ M S → Option α} {slot : Slot S}
    (hf : ∀ call a, f call = some a → call.clause = slot) (calls : List (Call σ M S)) :
    (callsOn slot calls).filterMap f = calls.filterMap f := by
  rw [callsOn, List.filterMap_filter]
  refine List.filterMap_congr fun call _ => ?_
  cases hcall : f call with
  | none => exact ite_self none
  | some a => exact if_pos (decide_eq_true (hf call a hcall))

/-- What a search finds first among the calls on one slot, it finds first among all calls, if it
looks at no others. -/
lemma findSome?_callsOn {α : Type} {f : Call σ M S → Option α} {slot : Slot S}
    (hf : ∀ call a, f call = some a → call.clause = slot) (calls : List (Call σ M S)) :
    (callsOn slot calls).findSome? f = calls.findSome? f := by
  rw [← List.head?_filterMap, ← List.head?_filterMap, filterMap_callsOn hf]

/-- A startup rule is made by the calls on its own slot. -/
lemma startRule?_callsOn (calls : List (Call σ M S)) (t : MessageType) :
    startRule? (callsOn (.start t) calls) t = startRule? calls t := by
  have hinitial : ∀ (call : Call σ M S) a, call.initial? t = some a → call.clause = .start t := by
    intro call a h
    cases call <;> simp_all [Call.initial?, Call.clause]
  have haction : ∀ (call : Call σ M S) a,
      call.startAction? t = some a → call.clause = .start t := by
    intro call a h
    cases call <;> simp_all [Call.startAction?, Call.clause]
  rw [startRule?, startRule?, findSome?_callsOn hinitial, filterMap_callsOn haction]

/-- A transition rule is made by the calls on its own slot. -/
lemma transferRule?_callsOn (calls : List (Call σ M S)) (source : S.State) (t : MessageType) :
    transferRule? (callsOn (.transfer source t) calls) source t =
      transferRule? calls source t := by
  have htarget : ∀ (call : Call σ M S) a,
      call.target? source t = some a → call.clause = .transfer source t := by
    intro call a h
    cases call <;> simp_all [Call.target?, Call.clause]
  have haction : ∀ (call : Call σ M S) a,
      call.transferAction? source t = some a → call.clause = .transfer source t := by
    intro call a h
    cases call <;> simp_all [Call.transferAction?, Call.clause]
  have hslot : ∀ call : Call σ M S,
      call.slot? = some (.transfer source t) → call.clause = .transfer source t := by
    intro call h
    cases call <;> simp_all [Call.slot?, Call.clause]
  have hex : (∃ call ∈ callsOn (.transfer source t) calls,
      call.slot? = some (.transfer source t)) ↔
        ∃ call ∈ calls, call.slot? = some (.transfer source t) := by
    constructor
    · rintro ⟨call, hmem, h⟩
      exact ⟨call, List.mem_of_mem_filter hmem, h⟩
    · rintro ⟨call, hmem, h⟩
      exact ⟨call, List.mem_filter.2 ⟨hmem, decide_eq_true (hslot call h)⟩, h⟩
  simp only [transferRule?, hex, findSome?_callsOn htarget, filterMap_callsOn haction]

/-- A selector is set by a call on its own slot. -/
lemma selector?_callsOn (calls : List (Call σ M S)) (t : MessageType) :
    (callsOn (.selector t) calls).findSome? (Call.selector? t) =
      calls.findSome? (Call.selector? t) := by
  refine findSome?_callsOn (fun call a h => ?_) calls
  cases call <;> simp_all [Call.selector?, Call.clause]

/-! ## Clauses in another order -/

/-- The calls that a clause stands for are all on its slot. -/
lemma clause_of_mem_calls {rule : Rule σ M S} (hmem : call ∈ rule.calls) :
    call.clause = rule.slot := by
  cases rule with
  | start trigger initial actions =>
    obtain rfl | hmem := List.mem_cons.1 hmem
    · rfl
    · obtain ⟨run, -, rfl⟩ := List.mem_map.1 hmem
      rfl
  | on source trigger steps =>
    obtain rfl | hmem := List.mem_cons.1 hmem
    · rfl
    · obtain ⟨step, -, rfl⟩ := List.mem_map.1 hmem
      cases step <;> rfl
  | correlate message select =>
    cases List.mem_singleton.1 hmem
    rfl

/-- The calls on a registration are those of the clauses that register it. -/
lemma callsOn_flatMap (slot : Slot S) (rules : List (Rule σ M S)) :
    callsOn slot (rules.flatMap Rule.calls) =
      (rules.filter fun rule => rule.slot = slot).flatMap Rule.calls := by
  induction rules with
  | nil => rfl
  | cons rule rest ih =>
    unfold callsOn at ih ⊢
    rw [List.flatMap_cons, List.filter_append, ih]
    by_cases hslot : rule.slot = slot
    · have hall : rule.calls.filter (fun call => call.clause = slot) = rule.calls :=
        List.filter_eq_self.2 fun call hmem =>
          decide_eq_true ((clause_of_mem_calls hmem).trans hslot)
      rw [List.filter_cons_of_pos (by simpa using hslot), List.flatMap_cons, hall]
    · have hnone : rule.calls.filter (fun call => call.clause = slot) = [] :=
        List.filter_eq_nil_iff.2 fun call hmem hclause =>
          hslot ((clause_of_mem_calls hmem).symm.trans (of_decide_eq_true hclause))
      rw [List.filter_cons_of_neg (by simpa using hslot), hnone, List.nil_append]

/-- Each clause claims its slot by one of the calls that it stands for, in their order. -/
lemma slots_sublist (rules : List (Rule σ M S)) :
    (rules.map Rule.slot).Sublist ((rules.flatMap Rule.calls).filterMap Call.slot?) := by
  induction rules with
  | nil => exact .refl _
  | cons rule rest ih =>
    rw [List.flatMap_cons, List.filterMap_append, List.map_cons]
    have hfirst : [rule.slot].Sublist (rule.calls.filterMap Call.slot?) := by
      cases rule <;> exact List.singleton_sublist.2 List.mem_cons_self
    exact hfirst.append ih

/-- Clauses with different slots may be arranged as one likes: the calls on each registration stay
the same, in the same order. -/
lemma callsOn_of_perm (hperm : rules.Perm rules')
    (hnodup : ((rules.flatMap Rule.calls).filterMap Call.slot?).Nodup) (slot : Slot S) :
    callsOn slot (rules'.flatMap Rule.calls) = callsOn slot (rules.flatMap Rule.calls) := by
  have hslots : (rules.map Rule.slot).Nodup := hnodup.sublist (slots_sublist rules)
  rw [callsOn_flatMap, callsOn_flatMap]
  congr 1
  refine (filter_eq_of_perm hperm fun rule hmem rule' hmem' h h' => ?_).symm
  exact List.inj_on_of_nodup_map hslots hmem hmem'
    ((of_decide_eq_true h).trans (of_decide_eq_true h').symm)

/-- An accepted call takes no slot but its own. -/
lemma Accepts.taken_cases (h : b.Accepts call b') {slot : Slot S} (htaken : b'.Taken slot) :
    b.Taken slot ∨ call.slot? = some slot := by
  cases h with
  | @startWhen trigger initial _ =>
    cases slot with
    | start t =>
      obtain rfl | htaken := (Keyed.contains_insert ..).1 htaken
      · exact .inr rfl
      · exact .inl htaken
    | _ => exact .inl htaken
  | executeOnStart =>
    cases slot with
    | start t => exact .inl ((Keyed.contains_modify ..).symm.trans htaken)
    | _ => exact .inl htaken
  | @onWhen source' trigger _ =>
    cases slot with
    | transfer source t =>
      obtain heq | htaken := (Keyed.contains_insert ..).1 htaken
      · cases heq
        exact .inr rfl
      · exact .inl htaken
    | target source t =>
      simp only [Taken, Keyed.get?_insert] at htaken
      split at htaken
      · cases htaken
      · exact .inl htaken
    | _ => exact .inl htaken
  | execute =>
    cases slot with
    | transfer source t => exact .inl ((Keyed.contains_modify ..).symm.trans htaken)
    | target source t =>
      simp only [Taken, Keyed.get?_modify] at htaken
      split at htaken
      · rw [Option.any_map] at htaken
        exact .inl htaken
      · exact .inl htaken
    | _ => exact .inl htaken
  | @transitionTo source' trigger target _ =>
    cases slot with
    | transfer source t => exact .inl ((Keyed.contains_modify ..).symm.trans htaken)
    | target source t =>
      simp only [Taken, Keyed.get?_modify] at htaken
      split at htaken
      · next heq =>
        cases heq
        exact .inr rfl
      · exact .inl htaken
    | _ => exact .inl htaken
  | @correlate message select _ =>
    cases slot with
    | selector t =>
      obtain rfl | htaken := (Keyed.contains_insert ..).1 htaken
      · exact .inr rfl
      · exact .inl htaken
    | _ => exact .inl htaken

/-- Calls that claim different slots, none of which is taken, all succeed. -/
lemma exists_performAll (hnodup : (calls.filterMap Call.slot?).Nodup)
    (hfree : ∀ slot ∈ calls.filterMap Call.slot?, ¬ b.Taken slot) :
    ∃ b', performAll calls b = .ok () b' := by
  induction calls generalizing b with
  | nil => exact ⟨b, rfl⟩
  | cons call rest ih =>
    have hmine : ∀ slot, call.slot? = some slot → slot ∈ (call :: rest).filterMap Call.slot? :=
      fun slot hslot => List.mem_filterMap.2 ⟨call, List.mem_cons_self, hslot⟩
    have hrest : (rest.filterMap Call.slot?).Sublist ((call :: rest).filterMap Call.slot?) :=
      (List.sublist_cons_self call rest).filterMap _
    rcases call.perform_cases b with ⟨slot, hslot, htaken⟩ | ⟨next, haccepts⟩
    · exact absurd htaken (hfree slot (hmine slot hslot))
    · rw [performAll_cons_of_accepts haccepts]
      refine ih (hnodup.sublist hrest) fun slot hmem htaken => ?_
      obtain htaken | hslot := haccepts.taken_cases htaken
      · exact hfree slot (hrest.subset hmem) htaken
      · rw [List.filterMap_cons_some hslot, List.nodup_cons] at hnodup
        exact hnodup.1 hmem

/-- Clauses that are all taken from the beginning are all taken in any order, and come to the same
rules. -/
lemma alike_of_perm (id : DefinitionId) (hperm : rules.Perm rules')
    (h : performAll (rules.flatMap Rule.calls) { definition := id } = .ok () b) :
    ∃ b', performAll (rules'.flatMap Rule.calls) { definition := id } = .ok () b' ∧ b.Alike b' := by
  have hcalls : (rules.flatMap Rule.calls).Perm (rules'.flatMap Rule.calls) :=
    hperm.flatMap_right _
  have htakes := Takes.of_performAll h
  have hchained := chained_flatMap h
  have hnodup := (htakes.nodup_slots hchained).1
  obtain ⟨b', h'⟩ : ∃ b',
      performAll (rules'.flatMap Rule.calls) { definition := id } = .ok () b' := by
    refine exists_performAll ((hcalls.filterMap _).nodup_iff.1 hnodup) fun slot _ => ?_
    cases slot <;> nofun
  have htakes' := Takes.of_performAll h'
  have hchained' := chained_flatMap h'
  have hon := callsOn_of_perm hperm hnodup
  refine ⟨b', h', ?definition, fun t => ?starts, fun source t => ?transfers, fun t => ?selectors,
    ?observed⟩
  case definition => exact htakes'.definition_eq.trans htakes.definition_eq.symm
  case starts =>
    calc b'.starts.get? t
        _ = startRule? (rules'.flatMap Rule.calls) t := htakes'.get?_starts hchained' t
        _ = startRule? (rules.flatMap Rule.calls) t := by
          rw [← startRule?_callsOn, hon, startRule?_callsOn]
        _ = b.starts.get? t := (htakes.get?_starts hchained t).symm
  case transfers =>
    calc b'.transfers.get? (source, t)
        _ = transferRule? (rules'.flatMap Rule.calls) source t :=
          htakes'.get?_transfers hchained' source t
        _ = transferRule? (rules.flatMap Rule.calls) source t := by
          rw [← transferRule?_callsOn, hon, transferRule?_callsOn]
        _ = b.transfers.get? (source, t) := (htakes.get?_transfers hchained source t).symm
  case selectors =>
    calc b'.selectors.get? t
        _ = (rules'.flatMap Rule.calls).findSome? (Call.selector? t) := htakes'.get?_selectors t
        _ = (rules.flatMap Rule.calls).findSome? (Call.selector? t) := by
          rw [← selector?_callsOn, hon, selector?_callsOn]
        _ = b.selectors.get? t := (htakes.get?_selectors t).symm
  case observed =>
    rw [List.perm_ext_iff_of_nodup (htakes'.nodup_observed .nil) (htakes.nodup_observed .nil)]
    intro t
    rw [htakes'.mem_observed, htakes.mem_observed]
    simp only [hcalls.mem_iff]

/-- It makes no difference in which order clauses are taken that are all accepted: in any other
order they are all accepted too, a build has the same verdict, with the same message types missing
and extra, and two blueprints have the same rules and selectors and answer every question alike. -/
theorem rule_order_immaterial [Message M] (id : DefinitionId) {rules rules' : List (Rule σ M S)}
    {b : Builder σ M S} (hperm : rules.Perm rules')
    (htaken : (rules.forM take).run { definition := id } = .ok () b) :
    ∃ b', (rules'.forM take).run { definition := id } = .ok () b' ∧
      (∀ e, b'.build = .error e ↔ b.build = .error e) ∧
      ∀ blueprint, b.build = .ok blueprint →
        ∃ blueprint', b'.build = .ok blueprint' ∧ blueprint.Agrees blueprint' := by
  rw [forM_take] at htaken ⊢
  obtain ⟨b', htaken', halike⟩ := alike_of_perm id hperm htaken
  exact ⟨b', htaken', halike.build⟩

end Builder

namespace Pipeline

/-- The rules of a pipeline may be read from the last to the first. -/
theorem pipeline_backwards :
    let rules := (pipeline Unit).rules
    ∃ b b' : Builder Unit JobMessage stages,
      rules.Perm rules.reverse ∧
      (rules.forM take).run { definition := ⟨"pipeline", 0⟩ } = .ok () b ∧
      (rules.reverse.forM take).run { definition := ⟨"pipeline", 0⟩ } = .ok () b' ∧
      ∃ blueprint blueprint', b.build = .ok blueprint ∧ b'.build = .ok blueprint' ∧
        blueprint.Agrees blueprint' := by
  intro rules
  have hperm : rules.Perm rules.reverse := (List.reverse_perm rules).symm
  have hok : (pipeline Unit).compile.isOk = true := by decide +kernel
  unfold Definition.compile at hok
  split at hok
  case h_2 => cases hok
  case h_1 b htaken =>
    obtain ⟨b', htaken', -, hblueprint⟩ :=
      Builder.rule_order_immaterial ⟨"pipeline", 0⟩ hperm htaken
    cases hbuild : b.build with
    | error e =>
      rw [hbuild] at hok
      cases hok
    | ok blueprint =>
      obtain ⟨blueprint', hbuild', hagrees⟩ := hblueprint blueprint hbuild
      exact ⟨b, b', hperm, htaken, htaken', blueprint, blueprint', hbuild, hbuild', hagrees⟩

end Pipeline

end Saga
