import Mathlib.Data.List.Nodup
import Mathlib.Data.List.Sort
import Mathlib.Data.String.Basic
import Saga.Blueprint
import Saga.Proofs.Builder.Calls

/-!
# What a build checks

A builder remembers the message types of its rules apart from the rules. Whatever is called on it,
and however often a type is used, that list names just the types of the accepted rules, each once
(`Builder.Takes.mem_observed`, `Builder.Takes.nodup_observed`). So a build compares the types of the
rules with those of the selectors and names every difference (`Builder.build_exact`), and the
messages of a blueprint, which are read off its selectors, are those of its rules.
-/

namespace Saga

variable {σ M : Type} {S : StateSet}

/-- Whether names are those of the message types with a property, in order and each type once. -/
def ListsNames (names : List String) (p : MessageType → Prop) : Prop :=
  names.Pairwise (· ≤ ·) ∧ ∃ types : List MessageType,
    types.Nodup ∧ (∀ t, t ∈ types ↔ p t) ∧ names.Perm (types.map MessageType.name)

/-- The sorted names of the message types with a property list just these. -/
lemma listsNames_sortedNames {types : List MessageType} {p : MessageType → Prop}
    (hnodup : types.Nodup) (hmem : ∀ t, t ∈ types ↔ p t) :
    ListsNames (sortedNames (types.map MessageType.name)) p := by
  refine ⟨?_, types, hnodup, hmem, List.mergeSort_perm _ _⟩
  exact List.pairwise_mergeSort' (· ≤ ·) _

/-- Whether a rule of the blueprint is for a message type. -/
def Blueprint.Uses (b : Blueprint σ M S) (trigger : MessageType) : Prop :=
  b.starts.contains trigger ∨ ∃ source, b.transfers.contains (source, trigger)

namespace Builder

variable {b b' : Builder σ M S} {call : Call σ M S} {calls made : List (Call σ M S)}
  {t : MessageType}

/-- Whether a message has a rule, at the start or in some state. -/
def Ruled (b : Builder σ M S) (trigger : MessageType) : Prop :=
  b.starts.contains trigger ∨ ∃ source, b.transfers.contains (source, trigger)

namespace Accepts

/-- An accepted call makes the builder observe its message, besides those observed before. -/
lemma mem_observed (h : b.Accepts call b') :
    t ∈ b'.observed ↔ t ∈ b.observed ∨ call.observes? = some t := by
  cases h with
  | startWhen _ => simp [Call.observes?, List.mem_insert_iff, or_comm, eq_comm]
  | onWhen _ => simp [Call.observes?, List.mem_insert_iff, or_comm, eq_comm]
  | _ => simp [Call.observes?]

/-- The builder observes no message twice. -/
lemma nodup_observed (h : b.Accepts call b') (hnodup : b.observed.Nodup) : b'.observed.Nodup := by
  cases h with
  | startWhen _ => exact hnodup.insert
  | onWhen _ => exact hnodup.insert
  | _ => exact hnodup

/-- An accepted call gives its message a rule, if it is a call on one, besides those that had one.
-/
lemma ruled (h : b.Accepts call b') : b'.Ruled t ↔ b.Ruled t ∨ call.observes? = some t := by
  cases h with
  | @startWhen trigger initial _ =>
    simp only [Ruled, Keyed.contains_insert, Call.observes?, Option.some.injEq]
    tauto
  | @onWhen source trigger _ =>
    simp only [Ruled, Keyed.contains_insert, Call.observes?, Option.some.injEq, Prod.mk.injEq]
    constructor
    · rintro (hstart | ⟨other, ⟨-, heq⟩ | hother⟩)
      · exact .inl (.inl hstart)
      · exact .inr heq
      · exact .inl (.inr ⟨other, hother⟩)
    · rintro ((hstart | ⟨other, hother⟩) | heq)
      · exact .inl hstart
      · exact .inr ⟨other, .inr hother⟩
      · exact .inr ⟨source, .inl ⟨rfl, heq⟩⟩
  | _ => simp [Ruled, Call.observes?]

/-- An accepted call gives its message a selector, if it sets one, besides those that had one. -/
lemma selected (h : b.Accepts call b') :
    b'.selectors.contains t ↔ b.selectors.contains t ∨ call.selects? = some t := by
  cases h with
  | correlate _ =>
    simp only [Keyed.contains_insert, Call.selects?, Option.some.injEq]
    tauto
  | _ => simp [Call.selects?]

end Accepts

namespace Takes

/-- The observed message types are those of the accepted rules. -/
lemma mem_observed (h : Takes b calls made b') :
    t ∈ b'.observed ↔ t ∈ b.observed ∨ ∃ call ∈ made, call.observes? = some t :=
  h.holds_iff fun _ _ _ haccepts => haccepts.mem_observed

/-- No message type is observed twice. -/
lemma nodup_observed (h : Takes b calls made b') (hnodup : b.observed.Nodup) :
    b'.observed.Nodup := by
  induction h with
  | nil => exact hnodup
  | accepted haccepts _ ih => exact ih (haccepts.nodup_observed hnodup)
  | rejected _ _ _ ih => exact ih hnodup

/-- After any calls the messages with a rule are those that had one and those of the accepted calls
on rules. -/
lemma ruled (h : Takes b calls made b') :
    b'.Ruled t ↔ b.Ruled t ∨ ∃ call ∈ made, call.observes? = some t :=
  h.holds_iff fun _ _ _ haccepts => haccepts.ruled

/-- After any calls the messages with a selector are those that had one and those for which one was
accepted. -/
lemma selected (h : Takes b calls made b') :
    b'.selectors.contains t ↔
      b.selectors.contains t ∨ ∃ call ∈ made, call.selects? = some t :=
  h.holds_iff fun _ _ _ haccepts => haccepts.selected

end Takes

/-- The messages that miss a selector are the observed ones without one. -/
lemma mem_missing : t ∈ b.missing ↔ t ∈ b.observed ∧ ¬ b.selectors.contains t := by
  simp [missing]

/-- The messages with a selector too many are those that have one and are not observed. -/
lemma mem_extra : t ∈ b.extra ↔ b.selectors.contains t ∧ t ∉ b.observed := by
  simp only [extra, List.mem_filter, ← Keyed.contains_iff_mem_keys]
  simp

/-- A build succeeds when nothing is missing and nothing is extra. -/
lemma build_eq_ok_iff {blueprint : Blueprint σ M S} :
    b.build = .ok blueprint ↔
      (∀ t, t ∈ b.observed ↔ b.selectors.contains t) ∧
        blueprint = ⟨b.definition, b.starts, b.transfers, b.selectors⟩ := by
  have hagree : (b.missing.isEmpty && b.extra.isEmpty) = true ↔
      ∀ t, t ∈ b.observed ↔ b.selectors.contains t := by
    simp only [Bool.and_eq_true, List.isEmpty_iff, List.eq_nil_iff_forall_not_mem, mem_missing,
      mem_extra]
    constructor
    · rintro ⟨hmissing, hextra⟩ t
      constructor
      · intro hobserved
        by_contra hselected
        exact hmissing t ⟨hobserved, hselected⟩
      · intro hselected
        by_contra hobserved
        exact hextra t ⟨hselected, hobserved⟩
    · intro h
      refine ⟨fun t ht => ht.2 ((h t).1 ht.1), fun t ht => ht.2 ((h t).2 ht.1)⟩
  unfold build
  split
  · next hempty =>
    constructor
    · intro h
      cases h
      exact ⟨hagree.1 hempty, rfl⟩
    · rintro ⟨-, rfl⟩
      rfl
  · next hempty =>
    refine ⟨nofun, ?_⟩
    rintro ⟨h, -⟩
    exact absurd (hagree.2 h) hempty

/-- A build fails in one way only, with the sorted names of the messages that miss a selector or
have one too many. -/
lemma build_eq_error {e : BuildError} (h : b.build = .error e) :
    e = .correlationMismatch b.definition.name (sortedNames (b.missing.map MessageType.name))
      (sortedNames (b.extra.map MessageType.name)) := by
  unfold build at h
  split at h
  · cases h
  · cases h
    rfl

/-- After any calls a build succeeds just when the message types of the accepted rules are those of
the accepted selectors, and else names all types of the one kind that are not of the other. The
blueprint observes the message types that its rules use, and finds a selector for each. -/
theorem build_exact [Message M] (id : DefinitionId) (calls : List (Call σ M S)) :
    let fresh : Builder σ M S := { definition := id }
    let built := (fresh.after calls).build
    let ruled := fun t => ∃ call ∈ fresh.accepted calls, call.observes? = some t
    let selected := fun t => ∃ call ∈ fresh.accepted calls, call.selects? = some t
    ((∃ blueprint, built = .ok blueprint) ↔ ∀ t, ruled t ↔ selected t) ∧
      (∀ e, built = .error e → ∃ missing extra, e = .correlationMismatch id.name missing extra ∧
        ListsNames missing (fun t => ruled t ∧ ¬ selected t) ∧
        ListsNames extra (fun t => selected t ∧ ¬ ruled t)) ∧
      ∀ blueprint, built = .ok blueprint →
        ListsNames blueprint.observedMessages blueprint.Uses ∧
        ∀ m, blueprint.Uses (Message.type m) →
          ∀ definition message,
            blueprint.correlate m ≠ .error (.missingCorrelation definition message) := by
  intro fresh built ruled selected
  have htakes := takes fresh calls
  have hobserved : ∀ t, t ∈ (fresh.after calls).observed ↔ ruled t := by
    intro t
    rw [htakes.mem_observed]
    simp [fresh, ruled]
  have hselected : ∀ t, (fresh.after calls).selectors.contains t ↔ selected t := by
    intro t
    have hnone : ¬ fresh.selectors.contains t := nofun
    rw [htakes.selected]
    simp [hnone, selected]
  have hruled : ∀ t, (fresh.after calls).Ruled t ↔ ruled t := by
    intro t
    have hnone : ¬ fresh.Ruled t := by
      rintro (hstart | ⟨source, htransfer⟩)
      · cases hstart
      · cases htransfer
    rw [htakes.ruled]
    simp [hnone, ruled]
  have hnodup : (fresh.after calls).observed.Nodup := htakes.nodup_observed .nil
  refine ⟨?ok, ?error, ?blueprint⟩
  case ok =>
    simp only [built, build_eq_ok_iff, exists_and_left, exists_eq, and_true, hobserved, hselected]
  case error =>
    intro e he
    have hmismatch := build_eq_error he
    rw [htakes.definition_eq] at hmismatch
    refine ⟨_, _, hmismatch, ?_, ?_⟩
    · refine listsNames_sortedNames (hnodup.filter _) ?_
      intro t
      rw [mem_missing, hobserved, hselected]
    · refine listsNames_sortedNames ((fresh.after calls).selectors.nodup.filter _) ?_
      intro t
      rw [mem_extra, hobserved, hselected]
  case blueprint =>
    intro blueprint hok
    obtain ⟨hagree, rfl⟩ := build_eq_ok_iff.1 hok
    have huses : ∀ t, (fresh.after calls).selectors.contains t ↔ (fresh.after calls).Ruled t := by
      intro t
      rw [hruled, ← hobserved, hagree]
    refine ⟨?_, ?_⟩
    · refine listsNames_sortedNames (fresh.after calls).selectors.nodup ?_
      intro t
      exact (Keyed.contains_iff_mem_keys _ t).symm.trans (huses t)
    · intro m hm definition message hcorrelate
      have hcontains : (fresh.after calls).selectors.contains (Message.type m) := (huses _).2 hm
      obtain ⟨select, hselect⟩ := Option.isSome_iff_exists.1 hcontains
      simp only [Blueprint.correlate] at hcorrelate
      rw [hselect] at hcorrelate
      dsimp only at hcorrelate
      split at hcorrelate <;> cases hcorrelate

end Builder

end Saga
