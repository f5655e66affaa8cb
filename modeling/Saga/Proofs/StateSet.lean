import Mathlib.Data.List.Nodup
import Mathlib.Tactic.Lemma
import Saga.StateSet

/-!
# States and their ordinals

No two members of a state set share an ordinal, so a state is known by its ordinal
(`State.ordinal_injective`), and the state found for an ordinal is the one that has it
(`ofOrdinal?_eq_some_iff`).
-/

namespace Saga.StateSet

variable {S : StateSet}

/-- Every member of a set is among its states. -/
lemma mem_states (s : S.State) : s ∈ S.states := List.mem_attach _ s

/-- Distinct states have distinct ordinals. -/
lemma State.ordinal_injective {s t : S.State} (h : s.ordinal = t.ordinal) : s = t :=
  Subtype.ext (List.inj_on_of_nodup_map S.distinct s.property t.property h)

/-- The state found for an ordinal has it. -/
lemma ordinal_of_ofOrdinal? {o : Int32} {s : S.State} (h : S.ofOrdinal? o = some s) :
    s.ordinal = o := by
  simpa using List.find?_some h

/-- A state is found by its ordinal. -/
lemma ofOrdinal?_ordinal (s : S.State) : S.ofOrdinal? s.ordinal = some s := by
  cases hfound : S.ofOrdinal? s.ordinal with
  | none =>
    have hnone := List.find?_eq_none.1 hfound s (mem_states s)
    simp at hnone
  | some t => rw [State.ordinal_injective (ordinal_of_ofOrdinal? hfound)]

/-- The state found for an ordinal is the one that has it. -/
lemma ofOrdinal?_eq_some_iff {o : Int32} {s : S.State} :
    S.ofOrdinal? o = some s ↔ s.ordinal = o := by
  constructor
  · exact ordinal_of_ofOrdinal?
  · rintro rfl
    exact ofOrdinal?_ordinal s

/-- Nothing is found for just the ordinals that no member has. -/
lemma ofOrdinal?_eq_none_iff {o : Int32} :
    S.ofOrdinal? o = none ↔ ∀ m ∈ S.members, m.ordinal ≠ o := by
  constructor
  · intro hnone m hm ho
    have hfound : S.ofOrdinal? o = some ⟨m, hm⟩ := ofOrdinal?_eq_some_iff.2 ho
    cases hnone.symm.trans hfound
  · intro hmembers
    cases hfound : S.ofOrdinal? o with
    | none => rfl
    | some s => exact absurd (ordinal_of_ofOrdinal? hfound) (hmembers s.val s.property)

end Saga.StateSet
