import Mathlib.Data.List.Nodup
import Saga.Pipeline
import Saga.Proofs.Builder.Validation

/-!
# The first registration wins

A slot belongs to the first call that claims it: from then on every call for it is rejected, and no
other call is (`Builder.Takes.taken_iff`). A rejected call leaves no trace, so the calls that were
accepted come to the same builder by themselves, and the tables of the builder can be read off the
calls (`startRule?`, `transferRule?`): a rule has the target that it was given first and the actions
attached to its clause in their order (`Builder.first_call_wins`).
-/

namespace Saga

namespace Builder

variable {σ M : Type} {S : StateSet} {b b' : Builder σ M S} {call : Call σ M S}
  {calls made : List (Call σ M S)} {source : S.State} {t : MessageType}

namespace Call

/-- The state in which a call has instances start. -/
def initial? (t : MessageType) : Call σ M S → Option S.State
  | startWhen trigger initial => if trigger = t then some initial else none
  | _ => none

/-- The action that a call attaches to a startup rule. -/
def startAction? (t : MessageType) : Call σ M S → Option (Action σ M)
  | executeOnStart trigger run => if trigger = t then some run else none
  | _ => none

/-- The target that a call gives to a transition rule. -/
def target? (source : S.State) (t : MessageType) : Call σ M S → Option S.State
  | transitionTo source' trigger target =>
    if (source', trigger) = (source, t) then some target else none
  | _ => none

/-- The action that a call attaches to a transition rule. -/
def transferAction? (source : S.State) (t : MessageType) : Call σ M S → Option (Action σ M)
  | execute source' trigger run => if (source', trigger) = (source, t) then some run else none
  | _ => none

/-- The selector that a call gives to a message type. -/
def selector? (t : MessageType) : Call σ M S → Option (M → String)
  | correlate message select => if message = t then some select else none
  | _ => none

end Call

/-- The startup rule that calls come to: the first initial state, and all actions. -/
def startRule? (calls : List (Call σ M S)) (t : MessageType) : Option (StartRule σ M S) :=
  (calls.findSome? (Call.initial? t)).map fun initial =>
    ⟨initial, calls.filterMap (Call.startAction? t)⟩

/-- The transition rule that calls come to: the first target, if any, and all actions. -/
def transferRule? (calls : List (Call σ M S)) (source : S.State) (t : MessageType) :
    Option (TransferRule σ M S) :=
  if ∃ call ∈ calls, call.slot? = some (.transfer source t) then
    some ⟨calls.findSome? (Call.target? source t), calls.filterMap (Call.transferAction? source t)⟩
  else none

namespace Accepts

/-- A startup rule is put in where there was none, or gains an action. -/
lemma get?_starts (h : b.Accepts call b') (hstands : b.Stands call) (t : MessageType) :
    b'.starts.get? t =
      match b.starts.get? t with
      | some rule => some { rule with actions := rule.actions ++ (call.startAction? t).toList }
      | none => (call.initial? t).map fun initial => ⟨initial, []⟩ := by
  cases h with
  | @startWhen trigger initial hfree =>
    by_cases ht : trigger = t
    · subst ht
      have hnone : b.starts.get? trigger = none := by
        simpa [Taken, Keyed.contains] using hfree
      simp [Call.initial?, hnone]
    · cases hget : b.starts.get? t <;> simp [Call.initial?, Call.startAction?, ht, hget]
  | @executeOnStart trigger run =>
    by_cases ht : trigger = t
    · subst ht
      obtain ⟨rule, hrule⟩ := Option.isSome_iff_exists.1 hstands
      simp [Call.startAction?, hrule]
    · cases hget : b.starts.get? t <;> simp [Call.initial?, Call.startAction?, ht, hget]
  | _ => cases b.starts.get? t <;> simp [Call.initial?, Call.startAction?]

/-- A transition rule is put in where there was none, or gains an action or its target. -/
lemma get?_transfers (h : b.Accepts call b') (hstands : b.Stands call) (source : S.State)
    (t : MessageType) :
    b'.transfers.get? (source, t) =
      match b.transfers.get? (source, t) with
      | some rule => some ⟨rule.target.or (call.target? source t),
          rule.actions ++ (call.transferAction? source t).toList⟩
      | none => if call.slot? = some (.transfer source t) then some {} else none := by
  cases h with
  | @onWhen source' trigger hfree =>
    by_cases ht : (source', trigger) = (source, t)
    · cases ht
      have hnone : b.transfers.get? (source, t) = none := by
        simpa [Taken, Keyed.contains] using hfree
      simp [Call.slot?, hnone]
    · have hslot : ¬ (source' = source ∧ trigger = t) := by simpa using ht
      cases hget : b.transfers.get? (source, t) <;>
        simp [Call.slot?, Call.target?, Call.transferAction?, hslot, hget]
  | @execute source' trigger run =>
    by_cases ht : (source', trigger) = (source, t)
    · cases ht
      obtain ⟨rule, hrule⟩ := Option.isSome_iff_exists.1 hstands
      simp [Call.target?, Call.transferAction?, hrule]
    · have hslot : ¬ (source' = source ∧ trigger = t) := by simpa using ht
      cases hget : b.transfers.get? (source, t) <;>
        simp [Call.slot?, Call.target?, Call.transferAction?, hslot, hget]
  | @transitionTo source' trigger target hfree =>
    by_cases ht : (source', trigger) = (source, t)
    · cases ht
      obtain ⟨rule, hrule⟩ := Option.isSome_iff_exists.1 hstands
      have hopen : rule.target = none := by simpa [Taken, hrule] using hfree
      simp [Call.target?, Call.transferAction?, hrule, hopen]
    · have hslot : ¬ (source' = source ∧ trigger = t) := by simpa using ht
      cases hget : b.transfers.get? (source, t) <;>
        simp [Call.slot?, Call.target?, Call.transferAction?, hslot, hget]
  | _ =>
    cases b.transfers.get? (source, t) <;>
      simp [Call.slot?, Call.target?, Call.transferAction?]

/-- An accepted call sets the selector of a message if that is what it does, and only where there
was none. -/
lemma get?_selectors (h : b.Accepts call b') (t : MessageType) :
    b'.selectors.get? t = (b.selectors.get? t).or (call.selector? t) := by
  cases h with
  | @correlate message select hfree =>
    by_cases ht : message = t
    · subst ht
      have hnone : b.selectors.get? message = none := by
        simpa [Taken, Keyed.contains] using hfree
      simp [Call.selector?, hnone]
    · simp [Call.selector?, ht]
  | _ => simp [Call.selector?]

/-- An accepted call takes its slot, and no other. -/
lemma taken_iff (h : b.Accepts call b') (hstands : b.Stands call) (slot : Slot S) :
    b'.Taken slot ↔ b.Taken slot ∨ call.slot? = some slot := by
  cases slot with
  | start t =>
    have hget := h.get?_starts hstands t
    simp only [Taken, Keyed.contains, hget]
    cases b.starts.get? t with
    | some rule => simp
    | none => cases call <;> simp [Call.initial?, Call.slot?]
  | transfer source t =>
    have hget := h.get?_transfers hstands source t
    simp only [Taken, Keyed.contains, hget]
    cases b.transfers.get? (source, t) with
    | some rule => simp
    | none => simp
  | target source t =>
    have hget := h.get?_transfers hstands source t
    simp only [Taken, hget]
    cases hrule : b.transfers.get? (source, t) with
    | some rule => cases call <;> simp [Call.target?, Call.slot?]
    | none =>
      cases call with
      | transitionTo source' trigger target =>
        have hother : ¬ (source' = source ∧ trigger = t) := by
          rintro ⟨rfl, rfl⟩
          simp [Stands, Taken, Keyed.contains, hrule] at hstands
        simp [Call.slot?, hother]
      | onWhen source' trigger =>
        by_cases hslot : source' = source ∧ trigger = t <;> simp [Call.slot?, hslot]
      | _ => simp [Call.slot?]
  | selector t =>
    have hget := h.get?_selectors t
    simp only [Taken, Keyed.contains, hget]
    cases b.selectors.get? t with
    | some select => simp
    | none => cases call <;> simp [Call.selector?, Call.slot?]

end Accepts

/-- On a message without a startup rule no call can add an action to one. -/
lemma startAction?_of_none (hstands : b.Stands call) (hnone : b.starts.get? t = none) :
    call.startAction? t = none := by
  cases call with
  | executeOnStart trigger run =>
    have hother : trigger ≠ t := by
      rintro rfl
      simp [Stands, Taken, Keyed.contains, hnone] at hstands
    simp [Call.startAction?, hother]
  | _ => rfl

/-- On a state and message without a transition rule no call can add a target or an action to one.
-/
lemma transfer_of_none (hstands : b.Stands call) (hnone : b.transfers.get? (source, t) = none) :
    call.target? source t = none ∧ call.transferAction? source t = none := by
  have hother : ∀ source' trigger, b.Taken (.transfer source' trigger) →
      ¬ (source' = source ∧ trigger = t) := by
    rintro _ _ htaken ⟨rfl, rfl⟩
    simp [Taken, Keyed.contains, hnone] at htaken
  cases call with
  | execute source' trigger run =>
    exact ⟨rfl, by simp [Call.transferAction?, hother _ _ hstands]⟩
  | transitionTo source' trigger target =>
    exact ⟨by simp [Call.target?, hother _ _ hstands], rfl⟩
  | _ => exact ⟨rfl, rfl⟩

namespace Takes

/-- A slot is taken in the end if it was at first or an accepted call has claimed it. -/
lemma taken_iff (h : Takes b calls made b') (hchained : b.Chained calls) (slot : Slot S) :
    b'.Taken slot ↔ b.Taken slot ∨ ∃ call ∈ made, call.slot? = some slot := by
  induction h with
  | nil => simp
  | accepted haccepts _ ih =>
    obtain ⟨hstands, hrest⟩ := (chained_of_accepts haccepts).1 hchained
    rw [ih hrest, haccepts.taken_iff hstands]
    simp [or_assoc]
  | rejected hslot htaken _ ih => exact ih ((chained_of_taken hslot htaken).1 hchained).2

/-- The accepted calls claim each slot once, and none that was taken before. -/
lemma nodup_slots (h : Takes b calls made b') (hchained : b.Chained calls) :
    (made.filterMap Call.slot?).Nodup ∧ ∀ slot ∈ made.filterMap Call.slot?, ¬ b.Taken slot := by
  induction h with
  | nil => exact ⟨.nil, nofun⟩
  | @accepted b b' b'' call rest made haccepts _ ih =>
    obtain ⟨hstands, hrest⟩ := (chained_of_accepts haccepts).1 hchained
    obtain ⟨hnodup, hfree⟩ := ih hrest
    have hfirst : ∀ slot, call.slot? = some slot → ¬ b.Taken slot := by
      intro slot hslot htaken
      have hrejected := perform_of_taken hslot htaken
      cases haccepts.perform.symm.trans hrejected
    have hlater : ∀ slot ∈ made.filterMap Call.slot?,
        ¬ b.Taken slot ∧ call.slot? ≠ some slot := by
      intro slot hmem
      have hfree := hfree slot hmem
      rw [haccepts.taken_iff hstands, not_or] at hfree
      exact hfree
    cases hslot : call.slot? with
    | none =>
      rw [List.filterMap_cons_none hslot]
      exact ⟨hnodup, fun slot hmem => (hlater slot hmem).1⟩
    | some slot =>
      rw [List.filterMap_cons_some hslot]
      refine ⟨List.nodup_cons.2 ⟨fun hmem => (hlater slot hmem).2 hslot, hnodup⟩, ?_⟩
      refine List.forall_mem_cons.2 ⟨hfirst slot hslot, fun slot hmem => (hlater slot hmem).1⟩
  | rejected hslot htaken _ ih => exact ih ((chained_of_taken hslot htaken).1 hchained).2

/-- What calls come to for a startup rule that is there or not: more actions, or the rule that they
describe. -/
lemma get?_starts (h : Takes b calls made b') (hchained : b.Chained calls) (t : MessageType) :
    b'.starts.get? t =
      match b.starts.get? t with
      | some rule =>
        some { rule with actions := rule.actions ++ calls.filterMap (Call.startAction? t) }
      | none => startRule? calls t := by
  induction h with
  | @nil b => cases b.starts.get? t <;> simp [startRule?]
  | @accepted b b' b'' call rest made haccepts _ ih =>
    obtain ⟨hstands, hrest⟩ := (chained_of_accepts haccepts).1 hchained
    rw [ih hrest, haccepts.get?_starts hstands]
    cases hget : b.starts.get? t with
    | some rule => cases hrun : call.startAction? t <;> simp [hrun]
    | none =>
      have hrun := startAction?_of_none hstands hget
      cases hinitial : call.initial? t <;> simp [startRule?, hinitial, hrun]
  | @rejected b b' call slot rest made hslot htaken _ ih =>
    obtain ⟨hstands, hrest⟩ := (chained_of_taken hslot htaken).1 hchained
    rw [ih hrest]
    cases hget : b.starts.get? t with
    | some rule =>
      have hrun : call.startAction? t = none := by
        cases call with
        | executeOnStart trigger run => cases hslot
        | _ => rfl
      simp [hrun]
    | none =>
      have hrun := startAction?_of_none hstands hget
      -- A rejected start is one for another message type, as its slot is taken.
      have hinitial : call.initial? t = none := by
        cases call with
        | startWhen trigger initial =>
          cases hslot
          have hother : trigger ≠ t := by
            rintro rfl
            simp [Taken, Keyed.contains, hget] at htaken
          simp [Call.initial?, hother]
        | _ => rfl
      simp [startRule?, hinitial, hrun]

/-- A transition rule has the target it had or the first that was set, and the actions it had before
those that were added. -/
lemma get?_transfers (h : Takes b calls made b') (hchained : b.Chained calls) (source : S.State)
    (t : MessageType) :
    b'.transfers.get? (source, t) =
      match b.transfers.get? (source, t) with
      | some rule => some ⟨rule.target.or (made.findSome? (Call.target? source t)),
          rule.actions ++ made.filterMap (Call.transferAction? source t)⟩
      | none => transferRule? made source t := by
  induction h with
  | @nil b => cases b.transfers.get? (source, t) <;> simp [transferRule?]
  | @accepted b b' b'' call rest made haccepts _ ih =>
    obtain ⟨hstands, hrest⟩ := (chained_of_accepts haccepts).1 hchained
    rw [ih hrest, haccepts.get?_transfers hstands]
    cases hget : b.transfers.get? (source, t) with
    | some rule =>
      cases htarget : call.target? source t <;> cases hrun : call.transferAction? source t <;>
        simp [htarget, hrun]
    | none =>
      obtain ⟨htarget, hrun⟩ := transfer_of_none hstands hget
      by_cases hslot : call.slot? = some (.transfer source t)
      · simp [transferRule?, hslot, htarget, hrun]
      · simp [transferRule?, hslot, htarget, hrun]
  | rejected hslot htaken _ ih => exact ih ((chained_of_taken hslot htaken).1 hchained).2

/-- The selector of a message is the one that was there, or the first that was set. -/
lemma get?_selectors (h : Takes b calls made b') (t : MessageType) :
    b'.selectors.get? t = (b.selectors.get? t).or (calls.findSome? (Call.selector? t)) := by
  induction h with
  | nil => simp
  | @accepted b b' b'' call rest made haccepts _ ih =>
    rw [ih, haccepts.get?_selectors]
    cases hselect : call.selector? t <;> simp [hselect]
  | @rejected b b' call slot rest made hslot htaken _ ih =>
    rw [ih]
    cases call with
    | correlate message select =>
      cases hslot
      by_cases ht : message = t
      · subst ht
        obtain ⟨first, hfirst⟩ := Option.isSome_iff_exists.1 htaken
        simp [hfirst]
      · simp [Call.selector?, ht]
    | _ => rfl

end Takes

/-- A call is rejected just when an earlier accepted call has claimed its slot, and then the builder
stays as it was. So the accepted calls come to the same builder by themselves, no two of them claim
one slot, and the rules of a blueprint are those that the first registrations describe: a startup
rule has the state of the first start for its message type, a transition rule the target that was
accepted, if any, and either has the actions of its clause in their order. -/
theorem first_call_wins (id : DefinitionId) (calls : List (Call σ M S))
    (hchained : Chained { definition := id } calls) :
    let fresh : Builder σ M S := { definition := id }
    (∀ before call rest, calls = before ++ call :: rest →
      (∀ e b', call.perform (fresh.after before) = .error e b' → b' = fresh.after before ∧
        ∃ slot, call.slot? = some slot ∧ e = slot.duplicate id.name) ∧
      ((∃ e b', call.perform (fresh.after before) = .error e b') ↔
        ∃ slot, call.slot? = some slot ∧
          ∃ earlier ∈ fresh.accepted before, earlier.slot? = some slot)) ∧
      fresh.after (fresh.accepted calls) = fresh.after calls ∧
      fresh.accepted (fresh.accepted calls) = fresh.accepted calls ∧
      ((fresh.accepted calls).filterMap Call.slot?).Nodup ∧
      ∀ blueprint, (fresh.after calls).build = .ok blueprint →
        (∀ t, blueprint.starts.get? t = startRule? calls t) ∧
        (∀ source t, blueprint.transfers.get? (source, t) =
          transferRule? (fresh.accepted calls) source t) ∧
        ∀ t, blueprint.selectors.get? t = calls.findSome? (Call.selector? t) := by
  intro fresh
  have htakes := takes fresh calls
  refine ⟨?rejected, ?replayed, ?again, (htakes.nodup_slots hchained).1, ?blueprint⟩
  case rejected =>
    intro before call rest hcalls
    subst hcalls
    have hbefore := takes fresh before
    have htaken : ∀ slot, (fresh.after before).Taken slot ↔
        ∃ earlier ∈ fresh.accepted before, earlier.slot? = some slot := by
      intro slot
      have hfree : ¬ fresh.Taken slot := by cases slot <;> nofun
      rw [hbefore.taken_iff hchained.of_append]
      simp [hfree]
    rcases call.perform_cases (fresh.after before) with ⟨slot, hslot, hmine⟩ | ⟨b', haccepts⟩
    · have hrejected := perform_of_taken hslot hmine
      rw [hbefore.definition_eq] at hrejected
      constructor
      · intro e b' he
        cases hrejected.symm.trans he
        exact ⟨rfl, slot, hslot, rfl⟩
      · exact ⟨fun _ => ⟨slot, hslot, (htaken slot).1 hmine⟩, fun _ => ⟨_, _, hrejected⟩⟩
    · have haccepted := haccepts.perform
      constructor
      · intro e b' he
        cases haccepted.symm.trans he
      · constructor
        · rintro ⟨e, b', he⟩
          cases haccepted.symm.trans he
        · rintro ⟨slot, hslot, hearlier⟩
          cases haccepted.symm.trans (perform_of_taken hslot ((htaken slot).2 hearlier))
  case replayed => exact htakes.replay.eq.2.symm
  case again => exact htakes.replay.eq.1.symm
  case blueprint =>
    intro blueprint hbuild
    obtain ⟨-, rfl⟩ := build_eq_ok_iff.1 hbuild
    refine ⟨fun t => ?_, fun source t => ?_, fun t => ?_⟩
    · exact htakes.get?_starts hchained t
    · exact htakes.get?_transfers hchained source t
    · exact htakes.get?_selectors t

end Builder

namespace Repeating
open Pipeline

/-- The calls of somebody who repeats themselves: a second start, a second rule with the same
trigger, a second target and a second selector, with actions attached in between. -/
def calls : List (Builder.Call Unit JobMessage stages) := [
  .startWhen Event.start.type stages.processing,
  .executeOnStart Event.start.type idle,
  .startWhen Event.start.type stages.failed,
  .onWhen stages.processing Event.complete.type,
  .execute stages.processing Event.complete.type idle,
  .transitionTo stages.processing Event.complete.type stages.completed,
  .transitionTo stages.processing Event.complete.type stages.failed,
  .execute stages.processing Event.complete.type idle,
  .onWhen stages.processing Event.complete.type,
  .correlate Event.start.type JobMessage.id,
  .correlate Event.start.type fun m => m.id ++ m.id,
  .correlate Event.complete.type JobMessage.id]

/-- Each repetition is rejected, and the blueprint is as if they had not been there. -/
theorem repeating_first_wins :
    Builder.Chained { definition := ⟨"repeating", 0⟩ } calls ∧
      ∃ blueprint : Blueprint Unit JobMessage stages,
        (Builder.after { definition := ⟨"repeating", 0⟩ } calls).build = .ok blueprint ∧
        blueprint.starts.get? Event.start.type = some ⟨stages.processing, [idle]⟩ ∧
        blueprint.transfers.get? (stages.processing, Event.complete.type) =
          some ⟨some stages.completed, [idle, idle]⟩ ∧
        blueprint.selectors.get? Event.start.type = some JobMessage.id := by
  have hchained : Builder.Chained { definition := ⟨"repeating", 0⟩ } calls := by
    refine ⟨trivial, rfl, trivial, trivial, rfl, rfl, rfl, rfl, trivial, trivial, trivial, trivial,
      trivial⟩
  obtain ⟨-, -, -, -, hblueprint⟩ :=
    Builder.first_call_wins ⟨"repeating", 0⟩ calls hchained
  obtain ⟨hstarts, htransfers, hselectors⟩ := hblueprint _ rfl
  refine ⟨hchained, _, rfl, ?_, ?_, ?_⟩
  · exact hstarts _
  · exact htransfers _ _
  · exact hselectors _

end Repeating

end Saga
